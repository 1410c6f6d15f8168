/-!
# Big-endian numbers

The target stores a number with its most significant byte first.  `value`
reads a byte list of any length as a number, and `bytes` writes a number in
a given count of bytes.
-/

namespace Monitor68.Bytes.BigEndian

/-- The number that a byte list spells, most significant byte first. -/
def value (bytes : List UInt8) : Nat :=
  bytes.foldl (fun acc b => acc * 256 + b.toNat) 0

/-- The last `width` bytes of a number, most significant first. -/
def bytes : Nat → Nat → List UInt8
  | 0, _ => []
  | width + 1, n => bytes width (n / 256) ++ [UInt8.ofNat n]

@[simp] theorem length_bytes (width n : Nat) : (bytes width n).length = width := by
  induction width generalizing n with
  | zero => rfl
  | succ width ih => simp [bytes, ih]

/-- A byte behind others counts once, and they count 256 times. -/
theorem value_append_singleton (xs : List UInt8) (b : UInt8) :
    value (xs ++ [b]) = value xs * 256 + b.toNat := by
  simp [value, List.foldl_append]

/-- What was written reads back, up to the width. -/
theorem value_bytes (width n : Nat) : value (bytes width n) = n % Nat.pow 256 width := by
  induction width generalizing n with
  | zero => simp [bytes, value, Nat.mod_one]
  | succ width ih =>
    rw [bytes, value_append_singleton, ih, UInt8.toNat_ofNat']
    have hsplit : n % (256 * Nat.pow 256 width) =
        n % 256 + 256 * (n / 256 % Nat.pow 256 width) := Nat.mod_mul
    have hpow : Nat.pow 256 (width + 1) = 256 * Nat.pow 256 width := Nat.mul_comm _ _
    rw [hpow, hsplit]
    omega

end Monitor68.Bytes.BigEndian
