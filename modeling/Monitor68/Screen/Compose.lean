import Monitor68.Screen.Frame
import Monitor68.Screen.Layout
import Monitor68.Target.Engine

/-!
# Composing a frame

A frame is made from target memory: the status byte, the palette and then
the palette indices of the frame buffer, row by row.  If the status asks
for a fill, the first index alone paints the whole frame.  The layout is
checked first, so that no address of the frame buffer overflows.

Composition may be cancelled, which is looked at before each row.
-/

namespace Monitor68.Screen

open Monitor68

/-- What the status byte says. -/
structure Status where
  /-- A frame is ready. -/
  ack : Bool
  /-- The whole frame has the colour of its first index. -/
  fill : Bool
deriving DecidableEq, Repr

/-- The status bit for a ready frame. -/
def ackMask : UInt8 := 0x80

/-- The status bit for a fill. -/
def fillMask : UInt8 := 0x40

def Status.ofByte (byte : UInt8) : Status :=
  { ack := byte &&& ackMask != 0, fill := byte &&& fillMask != 0 }

/-- Why no frame could be composed. -/
inductive ComposeError where
  | engine (error : EngineError)
  | cancelled
  /-- The frame buffer would not end within the address space. -/
  | tooLarge (base width height : UInt32)
deriving DecidableEq, Repr

def ComposeError.message : ComposeError → String
  | .engine error => "screen memory read failed: " ++ error.message
  | .cancelled => "composition cancelled"
  | .tooLarge base width height =>
    let size := sizeText width height
    let address := Text.Numeral.addressText base
    s!"{size} frame at 0x{address} exceeds the address space"

def paletteSize : Nat := 256

def colors : List UInt8 → List Color
  | r :: g :: b :: rest => ⟨r, g, b⟩ :: colors rest
  | _ => []

def lookup (palette : Array Color) (index : UInt8) : Color :=
  palette[index.toNat]?.getD .black

variable {ε : Type} [Engine ε]

def readStatus (e : ε) (l : Layout) : Except EngineError Status :=
  (Engine.readByte e l.statusAddress).map Status.ofByte

def readPalette (e : ε) (l : Layout) : Except EngineError (Array Color) :=
  (Engine.readBlock e l.paletteAddress (3 * paletteSize)).map fun bytes => (colors bytes).toArray

/-- The address of a row of a frame buffer.  The check of the layout keeps it
from overflowing. -/
def Layout.rowAddress (l : Layout) (buffer y : UInt32) : UInt32 := buffer + y * l.width

/-- Compose `left` more rows from row `y` on, behind the pixels that are
there. -/
def composeRows (e : ε) (l : Layout) (buffer : UInt32) (palette : Array Color)
    (cancelled : Bool) : (left : Nat) → (y : UInt32) → (pixels : Array Color) →
      Except ComposeError (Array Color)
  | 0, _, pixels => .ok pixels
  | left + 1, y, pixels =>
    if cancelled then .error .cancelled
    else
      match Engine.readBlock e (l.rowAddress buffer y) l.width.toNat with
      | .error error => .error (.engine error)
      | .ok row =>
        composeRows e l buffer palette cancelled left (y + 1)
          (row.foldl (fun pixels index => pixels.push (lookup palette index)) pixels)

/-- Compose the frame whose buffer begins at an address, unless that is
cancelled. -/
def composeUnless (cancelled : Bool) (e : ε) (l : Layout) (buffer : UInt32) :
    Except ComposeError Frame :=
  if l.fitsAt buffer then
    match readStatus e l with
    | .error error => .error (.engine error)
    | .ok status =>
      match readPalette e l with
      | .error error => .error (.engine error)
      | .ok palette =>
        if status.fill then
          match Engine.readByte e buffer with
          | .error error => .error (.engine error)
          | .ok index => .ok (.filled l.width l.height (lookup palette index))
        else
          (composeRows e l buffer palette cancelled l.height.toNat 0 #[]).map
            fun pixels => { width := l.width, height := l.height, pixels }
  else .error (.tooLarge buffer l.width l.height)

/-- Compose the frame whose buffer begins at an address. -/
def compose (e : ε) (l : Layout) (buffer : UInt32) : Except ComposeError Frame :=
  composeUnless false e l buffer

end Monitor68.Screen
