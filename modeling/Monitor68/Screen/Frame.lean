import Monitor68.Text.Line
import Monitor68.Text.Numeral

/-!
# Frames

A frame is a picture: a width, a height and the colours of its pixels row
by row.  It can be written as a binary portable pixel map: a header of
text lines with the width, the height and the greatest intensity, and then
three bytes per pixel.
-/

namespace Monitor68

/-- A colour of 24 bits. -/
structure Color where
  red : UInt8
  green : UInt8
  blue : UInt8
deriving DecidableEq, Repr

namespace Color

def black : Color := ⟨0, 0, 0⟩

def white : Color := ⟨255, 255, 255⟩

def bytes (c : Color) : List UInt8 := [c.red, c.green, c.blue]

end Color

/-- A picture, row by row. -/
structure Frame where
  width : UInt32
  height : UInt32
  pixels : Array Color
deriving DecidableEq, Repr

namespace Frame

def filled (width height : UInt32) (color : Color) : Frame :=
  { width, height, pixels := .replicate (width.toNat * height.toNat) color }

/-- The colour of a pixel, if it lies in the picture.  The pixels are counted
with 32-bit numbers, so a picture has to have fewer than 2^32 of them. -/
def pixel? (f : Frame) (x y : UInt32) : Option Color :=
  if x < f.width ∧ y < f.height then f.pixels[(y * f.width + x).toNat]? else none

def pixelBytes (f : Frame) : List UInt8 := f.pixels.toList.flatMap Color.bytes

def header (f : Frame) : String :=
  let width := Text.Numeral.decimal f.width.toNat
  let height := Text.Numeral.decimal f.height.toNat
  s!"P6\n{width} {height}\n255\n"

/-- The picture as a binary portable pixel map. -/
def toPixelMap (f : Frame) : List UInt8 := Text.encodeUtf8 f.header.toList ++ f.pixelBytes

end Frame

end Monitor68
