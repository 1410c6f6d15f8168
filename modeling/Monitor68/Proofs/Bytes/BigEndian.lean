import Mathlib.Data.Nat.Digits.Lemmas
import Monitor68.Bytes.BigEndian

/-!
# The value of big-endian bytes

Each byte counts 256 times as much as the one behind it, so that so many
bytes are the digits of a number in base 256 and are told by it.  A word of
32 bits gathers up to four of them by shifts.
-/

namespace Monitor68.Bytes.BigEndian

/-! ## The value of bytes -/

/-- Each byte counts 256 times as much as the one behind it. -/
theorem value_eq_ofDigits (bytes : List UInt8) :
    value bytes = Nat.ofDigits 256 (bytes.reverse.map UInt8.toNat) := by
  induction bytes using List.reverseRecOn with
  | nil => rfl
  | append_singleton bytes b ih =>
    rw [value_append_singleton, ih, List.reverse_append, List.reverse_singleton,
      List.singleton_append, List.map_cons, Nat.ofDigits_cons, Nat.mul_comm, Nat.add_comm]

theorem lt_of_mem_map_toNat (bytes : List UInt8) :
    ∀ d ∈ bytes.reverse.map UInt8.toNat, d < 256 := by
  intro d hd
  obtain ⟨b, -, rfl⟩ := List.mem_map.1 hd
  exact b.toNat_lt

theorem value_lt (bytes : List UInt8) : value bytes < 256 ^ bytes.length := by
  have hlt := Nat.ofDigits_lt_base_pow_length (by decide : 1 < 256) (lt_of_mem_map_toNat bytes)
  rwa [← value_eq_ofDigits, List.length_map, List.length_reverse] at hlt

/-- So many bytes are told by their value. -/
theorem value_inj {xs ys : List UInt8} (hlength : xs.length = ys.length)
    (h : value xs = value ys) : xs = ys := by
  rw [value_eq_ofDigits, value_eq_ofDigits] at h
  have hdigits := Nat.ofDigits_inj_of_len_eq (by decide : 1 < 256) (by simpa using hlength)
    (lt_of_mem_map_toNat xs) (lt_of_mem_map_toNat ys) h
  have hinj : Function.Injective UInt8.toNat := fun _ _ => UInt8.toNat_inj.1
  exact List.reverse_injective (hinj.list_map hdigits)

/-! ## Words of 32 bits -/

/-- The bytes shifted into a word, one behind the other. -/
def gathered (bytes : List UInt8) : UInt32 :=
  bytes.foldl (fun acc b => acc <<< 8 ||| b.toUInt32) 0

/-- So many bytes as a word has do not get lost in it. -/
theorem toNat_gathered {bytes : List UInt8} (h : bytes.length ≤ 4) :
    (gathered bytes).toNat = value bytes := by
  induction bytes using List.reverseRecOn with
  | nil => rfl
  | append_singleton bytes b ih =>
    rw [List.length_append, List.length_singleton] at h
    have hroom : value bytes < 256 ^ 3 :=
      (value_lt bytes).trans_le (Nat.pow_le_pow_right (by decide) (by omega))
    have hsplit : gathered (bytes ++ [b]) = gathered bytes <<< 8 ||| b.toUInt32 := by
      simp [gathered, List.foldl_append]
    have hshift : (gathered bytes <<< 8).toNat = 2 ^ 8 * value bytes := by
      rw [UInt32.toNat_shiftLeft, ih (by omega), Nat.shiftLeft_eq, Nat.mul_comm]
      exact Nat.mod_eq_of_lt (by show 2 ^ 8 * value bytes < 2 ^ 32; omega)
    rw [hsplit, UInt32.toNat_or, hshift, UInt8.toNat_toUInt32, value_append_singleton,
      ← Nat.two_pow_add_eq_or_of_lt b.toNat_lt, Nat.mul_comm]

end Monitor68.Bytes.BigEndian
