import Monitor68.Target.Engine
import Monitor68.Text.Blank

/-!
# Memory dumps

A dump shows memory around a centre in rows of four bytes.  It begins half
its span below the centre, but not below address zero, and ends early at
the first row that cannot be read as a whole or would begin past the last
address.  One row is marked if the stack pointer lies in it.

A row is printed as its address, its bytes in hexadecimal and its bytes as
characters, with a dot for every byte that is not a visible ASCII
character or a blank.
-/

namespace Monitor68

open Text

structure DumpRow where
  address : UInt32
  bytes : List UInt8
  /-- Whether the stack pointer falls into the row. -/
  marked : Bool
deriving DecidableEq, Repr

namespace DumpRow

/-- The bytes in a row. -/
def width : Nat := 4

/-- The column of hexadecimal digits: each byte with a blank behind it,
padded to the width of a full row. -/
def hexColumn (bytes : List UInt8) : String :=
  Numeral.padRight (3 * width) <|
    String.ofList (bytes.flatMap fun b => Numeral.hexDigits 2 b.toNat ++ [' '])

/-- A byte as a character, or a dot. -/
def glyph (byte : UInt8) : Char :=
  if 0x20 ≤ byte ∧ byte ≤ 0x7E then Char.ofNat byte.toNat else '.'

def textColumn (bytes : List UInt8) : String := String.ofList (bytes.map glyph)

/-- What follows a marked row. -/
def marker : String := " <- SP"

def render (row : DumpRow) : String :=
  let address := Numeral.addressText row.address
  let bytes := String.ofList (trimRight (hexColumn row.bytes).toList)
  let text := textColumn row.bytes
  let mark := if row.marked then marker else ""
  s!"0x{address} {bytes} {text}{mark}"

end DumpRow

namespace Dump

/-- The bytes that a dump of so many rows spans; spans do not exceed the
greatest 32-bit number. -/
def span (rows : Nat) : Nat := min (DumpRow.width * rows) (UInt32.size - 1)

/-- The address of the first row. -/
def start (center : UInt32) (rows : Nat) : Nat := center.toNat - span rows / 2

/-- Whether a row that begins at an address is marked.  The row ends below
the fourth address after it or, at the top, below the last address. -/
def isMarked (address sp : UInt32) : Bool :=
  address ≤ sp && sp.toNat < min (address.toNat + DumpRow.width) (UInt32.size - 1)

variable {ε : Type} [Engine ε]

/-- At most `left` rows from an address on, behind the rows `seen` in
reverse. -/
def rowsFrom (e : ε) (sp : UInt32) :
    (left address : Nat) → (seen : List DumpRow) → List DumpRow
  | 0, _, seen => seen.reverse
  | left + 1, address, seen =>
    if address < UInt32.size then
      let at32 := UInt32.ofNat address
      match Engine.readBlock e at32 DumpRow.width with
      | .error _ => seen.reverse
      | .ok bytes =>
        let row := { address := at32, bytes, marked := isMarked at32 sp }
        rowsFrom e sp left (address + DumpRow.width) (row :: seen)
    else seen.reverse

/-- The rows around a centre. -/
def around (e : ε) (center : UInt32) (rows : Nat) (sp : UInt32) : List DumpRow :=
  rowsFrom e sp rows (start center rows) []

end Dump

end Monitor68
