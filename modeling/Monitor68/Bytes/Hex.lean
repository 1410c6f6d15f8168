import Monitor68.Text.Numeral
import Monitor68.Text.Quoted

/-!
# Hexadecimal fields

A field of hexadecimal digits carries one byte in two digits of either
case.  It is read from the bytes of its text, since a position in a
message counts bytes: an odd number of them is the first fault to be
named, and after that the leftmost byte that is no digit.
-/

namespace Monitor68.Bytes.Hex

open Monitor68.Text

/-- Why a field cannot be read. -/
inductive Fault where
  | oddLength
  | invalidByte (byte : UInt8) (position : Nat)
deriving DecidableEq, Repr

def Fault.message : Fault → String
  | .oddLength => "Odd number of digits"
  | .invalidByte byte position =>
    let shown := Quoted.quote byte
    let place := Numeral.decimal position
    s!"Invalid character {shown} at position {place}"

/-- The value of a digit, given as the byte that encodes it. -/
def nibble (byte : UInt8) : Option Nat :=
  if 0x30 ≤ byte ∧ byte ≤ 0x39 then some (byte.toNat - 0x30)
  else if 0x41 ≤ byte ∧ byte ≤ 0x46 then some (byte.toNat - 0x41 + 10)
  else if 0x61 ≤ byte ∧ byte ≤ 0x66 then some (byte.toNat - 0x61 + 10)
  else none

/-- The value of the digit at `position`, or the complaint about it. -/
def nibbleAt (byte : UInt8) (position : Nat) : Except Fault Nat :=
  match nibble byte with
  | some n => .ok n
  | none => .error (.invalidByte byte position)

/-- Read pairs of digits, the first of them at `position`. -/
def decodePairs : Nat → List UInt8 → Except Fault (List UInt8)
  | position, high :: low :: rest =>
    match nibbleAt high position with
    | .error e => .error e
    | .ok h =>
      match nibbleAt low (position + 1) with
      | .error e => .error e
      | .ok l => (decodePairs (position + 2) rest).map (UInt8.ofNat (h * 16 + l) :: ·)
  | _, _ => .ok []

/-- The bytes that a field of digits carries. -/
def decode (field : List UInt8) : Except Fault (List UInt8) :=
  if field.length % 2 = 1 then .error .oddLength else decodePairs 0 field

/-- Bytes as upper-case digits. -/
def encode (bytes : List UInt8) : List Char :=
  bytes.flatMap fun b => Numeral.hexDigits 2 b.toNat

end Monitor68.Bytes.Hex
