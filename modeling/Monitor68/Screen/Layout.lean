import Monitor68.Text.Numeral

/-!
# The layout of the screen

The screen is a region of target memory.  Relative to its base address
lie, one byte per pixel, the palette indices of a frame; then a palette of
256 colours; then a status byte.  A frame buffer must end within the
32-bit address space.
-/

namespace Monitor68.Screen

open Monitor68

/-- Where the screen lies and how it is refreshed. -/
structure Layout where
  base : UInt32 := 0x20000
  width : UInt32 := 256
  height : UInt32 := 256
  /-- Whether the target says when a frame is ready, and is told by an
  interrupt when it was taken. -/
  frameSwap : Bool := false
  refreshRate : UInt32 := 1
  /-- The interrupt line raised after a frame was taken. -/
  interruptLine : UInt8 := 1
deriving DecidableEq, Repr

/-- A layout whose frame buffer does not end within the address space. -/
structure DoesNotFit where
  layout : Layout
deriving DecidableEq, Repr

namespace Layout

/-- The distance of the palette from the base. -/
def paletteOffset : UInt32 := 0x20000

/-- The distance of the status byte from the base. -/
def statusOffset : UInt32 := 0x20400

/-- The address of the palette; offsets wrap around at the top. -/
def paletteAddress (l : Layout) : UInt32 := l.base + paletteOffset

/-- The address of the status byte; offsets wrap around at the top. -/
def statusAddress (l : Layout) : UInt32 := l.base + statusOffset

def pixelCount (l : Layout) : Nat := l.width.toNat * l.height.toNat

/-- The size of a frame buffer, if it is a 32-bit number. -/
def frameLength? (l : Layout) : Option UInt32 :=
  if l.pixelCount < UInt32.size then some (UInt32.ofNat l.pixelCount) else none

/-- Whether a frame buffer at an address has both a 32-bit size and a 32-bit
end. -/
def fitsAt (l : Layout) (address : UInt32) : Bool :=
  match l.frameLength? with
  | some length => address.toNat + length.toNat < UInt32.size
  | none => false

/-- Refuse a layout whose frame buffer runs past the end of the address
space. -/
def validate (l : Layout) : Except DoesNotFit Unit :=
  if l.fitsAt l.base then .ok () else .error ⟨l⟩

/-- The milliseconds between two frames; a rate of zero counts as one. -/
def interval (l : Layout) : Nat := 1000 / max l.refreshRate.toNat 1

end Layout

def sizeText (width height : UInt32) : String :=
  Text.Numeral.decimal width.toNat ++ "x" ++ Text.Numeral.decimal height.toNat

def DoesNotFit.message (d : DoesNotFit) : String :=
  let size := sizeText d.layout.width d.layout.height
  let address := Text.Numeral.addressText d.layout.base
  s!"{size} screen at 0x{address} does not fit in the address space"

end Monitor68.Screen
