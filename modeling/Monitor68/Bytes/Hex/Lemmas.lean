import Monitor68.Bytes.Hex
import Monitor68.Text.Line

/-!
# Hexadecimal fields read back

A field that was written is read back whatever bytes it carries
(`decode_encode`).  Each byte is two digits, and each digit is one byte of
text, so the two ends meet digit by digit.
-/

namespace Monitor68.Bytes.Hex

open Monitor68.Text

/-- The byte that encodes a digit. -/
def digitByte (n : Nat) : UInt8 := UInt8.ofNat (Numeral.upperDigit n).toNat

/-- A digit reads as its value. -/
theorem nibble_digitByte {n : Nat} (h : n < 16) : nibble (digitByte n) = some n := by
  have hall : ∀ n < 16, nibble (digitByte n) = some n := by decide
  exact hall n h

/-- A digit takes one byte. -/
theorem utf8EncodeChar_upperDigit {n : Nat} (h : n < 16) :
    String.utf8EncodeChar (Numeral.upperDigit n) = [digitByte n] := by
  have hall : ∀ n < 16, String.utf8EncodeChar (Numeral.upperDigit n) = [digitByte n] := by
    decide
  exact hall n h

/-- The field of a byte and more: its two digits, the high one first. -/
theorem encodeUtf8_encode_cons (b : UInt8) (bs : List UInt8) :
    encodeUtf8 (encode (b :: bs)) =
      digitByte (b.toNat / 16) :: digitByte (b.toNat % 16) :: encodeUtf8 (encode bs) := by
  have hb : b.toNat < 256 := b.toNat_lt
  have hhigh : b.toNat / 16 < 16 := by omega
  have hmod : b.toNat / 16 % 16 = b.toNat / 16 := Nat.mod_eq_of_lt hhigh
  simp [encode, encodeUtf8, Numeral.hexDigits, hmod, utf8EncodeChar_upperDigit hhigh,
    utf8EncodeChar_upperDigit (Nat.mod_lt b.toNat (by omega : 0 < 16))]

/-- A field holds two digits for each byte. -/
theorem length_encodeUtf8_encode (bs : List UInt8) :
    (encodeUtf8 (encode bs)).length = 2 * bs.length := by
  induction bs with
  | nil => rfl
  | cons b bs ih =>
    rw [encodeUtf8_encode_cons, List.length_cons, List.length_cons, List.length_cons, ih]
    omega

/-- The digits of a field read back, wherever it stands. -/
theorem decodePairs_encode (position : Nat) (bs : List UInt8) :
    decodePairs position (encodeUtf8 (encode bs)) = .ok bs := by
  induction bs generalizing position with
  | nil => rfl
  | cons b bs ih =>
    have hb : b.toNat < 256 := b.toNat_lt
    have hhigh : nibble (digitByte (b.toNat / 16)) = some (b.toNat / 16) :=
      nibble_digitByte (by omega)
    have hlow : nibble (digitByte (b.toNat % 16)) = some (b.toNat % 16) :=
      nibble_digitByte (by omega)
    have hsum : b.toNat / 16 * 16 + b.toNat % 16 = b.toNat := by omega
    rw [encodeUtf8_encode_cons]
    simp [decodePairs, nibbleAt, hhigh, hlow, ih, hsum, Except.map]

/-- A field that was written reads back. -/
theorem decode_encode (bs : List UInt8) : decode (encodeUtf8 (encode bs)) = .ok bs := by
  have heven : (encodeUtf8 (encode bs)).length % 2 ≠ 1 := by
    rw [length_encodeUtf8_encode]
    omega
  rw [decode, if_neg heven, decodePairs_encode]

end Monitor68.Bytes.Hex
