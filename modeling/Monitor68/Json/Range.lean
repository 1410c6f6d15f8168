import Monitor68.Json.Token

/-!
# The range of numbers

A number that a reader looks at is either a whole number of 64 bits, or it
is taken in double precision: a significand of at most 64 bits times a
power of ten.  It must not overflow there.  The significand takes in
digits as long as it fits; digits of the whole part behind that point only
raise the power, and digits of the fraction behind it are dropped.

The significand and the power of ten are rounded to 53 bits each, and so
is their product; it overflows when it would round to two to the 1024th.
-/

namespace Monitor68.Json

def significandBound : Nat := UInt64.size

/-- A number rounded to at most so many bits; halves go to the even
neighbour. -/
def roundBits (bits n : Nat) : Nat :=
  let unit := Nat.pow 2 (n.log2 + 1 - bits)
  let low := n / unit
  let twice := 2 * (n % unit)
  if twice < unit ∨ (twice = unit ∧ low % 2 = 0) then low * unit else (low + 1) * unit

/-- The precision of a double. -/
def doubleBits : Nat := 53

/-- The least number that a double rounds to infinity. -/
def overflowBound : Nat := Nat.pow 2 1024 - Nat.pow 2 970

/-- The greatest power of ten that a double holds. -/
def greatestPower : Nat := 308

/-- Whether a significand times a power of ten overflows in double
precision. -/
def overflows (significand : Nat) (power : Int) : Bool :=
  match power with
  | .negSucc _ => false
  | .ofNat power =>
    if greatestPower < power then significand != 0
    else overflowBound ≤ roundBits doubleBits significand * roundBits doubleBits (Nat.pow 10 power)

/-- Take digits of the whole part into a significand.  The answer is the
significand and the number of digits that it has no room for. -/
def takeWhole : Nat → List Nat → Nat × Nat
  | n, [] => (n, 0)
  | n, d :: ds => if n * 10 + d < significandBound then takeWhole (n * 10 + d) ds
    else (n, ds.length + 1)

/-- Take digits of the fraction into a significand.  The answer is the
significand and the number of digits taken. -/
def takeFraction : Nat → List Nat → Nat × Nat
  | n, [] => (n, 0)
  | n, d :: ds =>
    if n * 10 + d < significandBound then
      let (n, taken) := takeFraction (n * 10 + d) ds
      (n, taken + 1)
    else (n, 0)

namespace Numeral

/-- The number as a whole number of 64 bits, if it is written as one. -/
def whole? (n : Numeral) : Option Nat :=
  match n with
  | { negative := false, whole, fraction := [], exponent := none } =>
    match takeWhole 0 whole with
    | (value, 0) => some value
    | _ => none
  | _ => none

/-- Whether the number overflows in double precision. -/
def isOutOfRange (n : Numeral) : Bool :=
  let (significand, left) := takeWhole 0 n.whole
  let (significand, taken) := takeFraction significand n.fraction
  overflows significand (left - taken + n.exponent.getD 0)

end Numeral

end Monitor68.Json
