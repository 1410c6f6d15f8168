/-!
# Numerals

Addresses and line numbers are read in a stated radix and below a stated
bound, with one optional plus sign in front.  A reader meets its faults
from left to right: at each character it first asks whether the character
is a digit and then whether the number still fits, so a long numeral with
a bad digit behind the point of overflow counts as too large.

Numbers are written in upper-case hexadecimal of a fixed width, or in
decimal.
-/

namespace Monitor68.Text.Numeral

/-- Why a text is not a numeral. -/
inductive Fault where
  | empty
  | invalidDigit
  | tooLarge
deriving DecidableEq, Repr

def Fault.message : Fault → String
  | .empty => "cannot parse integer from empty string"
  | .invalidDigit => "invalid digit found in string"
  | .tooLarge => "number too large to fit in target type"

/-! ## Reading -/

/-- The value of a digit; letters of either case stand for ten and up. -/
def digitValue (c : Char) : Option Nat :=
  if '0' ≤ c ∧ c ≤ '9' then some (c.toNat - '0'.toNat)
  else if 'a' ≤ c ∧ c ≤ 'z' then some (c.toNat - 'a'.toNat + 10)
  else if 'A' ≤ c ∧ c ≤ 'Z' then some (c.toNat - 'A'.toNat + 10)
  else none

/-- Read digits onto the number `value` that the digits before them gave. -/
def readDigits (radix bound : Nat) : Nat → List Char → Except Fault Nat
  | value, [] => .ok value
  | value, c :: cs =>
    match (digitValue c).filter (· < radix) with
    | none => .error .invalidDigit
    | some d =>
      if radix * value + d < bound then readDigits radix bound (radix * value + d) cs
      else .error .tooLarge

/-- Read a numeral below `bound`.  One plus sign may stand before the
digits, but not alone. -/
def read (radix bound : Nat) : List Char → Except Fault Nat
  | [] => .error .empty
  | ['+'] => .error .invalidDigit
  | '+' :: cs => readDigits radix bound 0 cs
  | cs => readDigits radix bound 0 cs

def readWord (radix : Nat) (cs : List Char) : Except Fault UInt32 :=
  (read radix UInt32.size cs).map UInt32.ofNat

/-! ## Writing -/

/-- The upper-case digit of a value below sixteen. -/
def upperDigit (n : Nat) : Char :=
  if n < 10 then Char.ofNat ('0'.toNat + n) else Char.ofNat ('A'.toNat + (n - 10))

/-- The last `width` hexadecimal digits of a number, in upper case. -/
def hexDigits : Nat → Nat → List Char
  | 0, _ => []
  | width + 1, n => hexDigits width (n / 16) ++ [upperDigit (n % 16)]

/-- A number in upper-case hexadecimal of fixed width. -/
def hex (width n : Nat) : String := String.ofList (hexDigits width n)

/-- A 32-bit address in eight hexadecimal digits. -/
def addressText (address : UInt32) : String := hex 8 address.toNat

def byteText (byte : UInt8) : String := hex 2 byte.toNat

def decimal (n : Nat) : String := String.ofList (Nat.toDigits 10 n)

/-- A whole number in decimal, with a minus sign if it is negative. -/
def signedDecimal : Int → String
  | .ofNat n => decimal n
  | .negSucc n => "-" ++ decimal (n + 1)

/-- The text padded with blanks on the right to at least `width`
characters. -/
def padRight (width : Nat) (text : String) : String :=
  text ++ String.ofList (List.replicate (width - text.length) ' ')

end Monitor68.Text.Numeral
