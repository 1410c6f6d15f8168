import Monitor68.Text.Numeral

/-!
# Numerals that were written read back

A number in decimal and an address in eight hexadecimal digits of either
case are read as the numbers that were written.  Both are written from the
last digit on and read from the first, so what carries the proofs is the
step at the end: one more digit, and the number times the radix plus the
digit.
-/

namespace Monitor68.Text.Numeral

/-! ## Digits at the end -/

theorem readDigits_append (radix bound value : Nat) (front back : List Char) :
    readDigits radix bound value (front ++ back) =
      (readDigits radix bound value front).bind (readDigits radix bound · back) := by
  induction front generalizing value with
  | nil => rfl
  | cons c cs ih =>
    rw [List.cons_append, readDigits, readDigits]
    cases (digitValue c).filter (· < radix) with
    | none => rfl
    | some d =>
      dsimp only
      split
      · exact ih _
      · rfl

/-- One more digit multiplies the number by the radix and is added to it. -/
theorem readDigits_concat {radix bound n d : Nat} {cs : List Char} {c : Char}
    (hcs : readDigits radix bound 0 cs = .ok n) (hc : digitValue c = some d) (hd : d < radix)
    (hbound : radix * n + d < bound) :
    readDigits radix bound 0 (cs ++ [c]) = .ok (radix * n + d) := by
  have hfilter : (digitValue c).filter (· < radix) = some d := by
    rw [hc, Option.filter_some, if_pos (decide_eq_true hd)]
  rw [readDigits_append, hcs]
  show readDigits radix bound n [c] = _
  rw [readDigits, hfilter]
  exact if_pos hbound

/-- Digits without a sign are read as digits. -/
theorem read_of_readDigits {radix bound n : Nat} {cs : List Char} (hne : cs ≠ [])
    (hsign : '+' ∉ cs) (h : readDigits radix bound 0 cs = .ok n) :
    read radix bound cs = .ok n := by
  rw [← h]
  unfold read
  split
  · exact absurd rfl hne
  · exact absurd List.mem_cons_self hsign
  · exact absurd List.mem_cons_self hsign
  · rfl

theorem readWord_of_readDigits {radix : Nat} {cs : List Char} {w : UInt32} (hne : cs ≠ [])
    (hsign : '+' ∉ cs) (h : readDigits radix UInt32.size 0 cs = .ok w.toNat) :
    readWord radix cs = .ok w := by
  rw [readWord, read_of_readDigits hne hsign h]
  exact congrArg Except.ok UInt32.ofNat_toNat

/-! ## Decimal -/

theorem digitValue_digitChar {d : Nat} (hd : d < 10) : digitValue d.digitChar = some d := by
  have hall : ∀ d < 10, digitValue d.digitChar = some d := by decide
  exact hall d hd

theorem readDigits_toDigits {bound n : Nat} (h : n < bound) :
    readDigits 10 bound 0 (Nat.toDigits 10 n) = .ok n := by
  induction n using Nat.strongRecOn with
  | ind n ih =>
    by_cases hn : n < 10
    · rw [Nat.toDigits_of_lt_base hn, ← List.nil_append [n.digitChar]]
      have hnone : readDigits 10 bound 0 [] = .ok 0 := rfl
      have hread := readDigits_concat hnone (digitValue_digitChar hn) hn (by omega)
      rwa [Nat.mul_zero, Nat.zero_add] at hread
    · have hlast : n % 10 < 10 := Nat.mod_lt n (by decide)
      rw [Nat.toDigits_of_base_le (by decide) (Nat.le_of_not_lt hn)]
      have hread := readDigits_concat (ih (n / 10) (by omega) (by omega))
        (digitValue_digitChar hlast) hlast (by omega : 10 * (n / 10) + n % 10 < bound)
      rwa [Nat.div_add_mod] at hread

/-- A number is read back from decimal. -/
theorem readWord_decimal (w : UInt32) : readWord 10 (Nat.toDigits 10 w.toNat) = .ok w := by
  refine readWord_of_readDigits Nat.toDigits_ne_nil (fun h => ?_) (readDigits_toDigits w.toNat_lt)
  exact absurd (Nat.isDigit_of_mem_toDigits (by decide) (by decide) h) (by decide)

/-! ## Hexadecimal of either case -/

theorem toNat_toUpper (c : Char) :
    c.toUpper.toNat = if 97 ≤ c.toNat ∧ c.toNat ≤ 122 then c.toNat - 32 else c.toNat := by
  have hval : c.val.toNat = c.toNat := rfl
  unfold Char.toUpper
  split
  · rename_i h
    have hletter : 97 ≤ c.toNat ∧ c.toNat ≤ 122 := h
    -- the distance of the cases is negative, so adding it wraps around
    have hshift : ('A'.val - 'a'.val).toNat = 4294967264 := rfl
    rw [if_pos hletter]
    show (c.val + ('A'.val - 'a'.val)).toNat = _
    rw [UInt32.toNat_add, hval, hshift]
    omega
  · rename_i h
    have hother : ¬ (97 ≤ c.toNat ∧ c.toNat ≤ 122) := h
    rw [if_neg hother]

/-- The value of a digit, said with the codes of the characters. -/
theorem digitValue_eq (c : Char) :
    digitValue c =
      if 48 ≤ c.toNat ∧ c.toNat ≤ 57 then some (c.toNat - 48)
      else if 97 ≤ c.toNat ∧ c.toNat ≤ 122 then some (c.toNat - 97 + 10)
      else if 65 ≤ c.toNat ∧ c.toNat ≤ 90 then some (c.toNat - 65 + 10)
      else none :=
  rfl

/-- A letter has the value of its upper case. -/
theorem digitValue_toUpper (c : Char) : digitValue c.toUpper = digitValue c := by
  rw [digitValue_eq, digitValue_eq, toNat_toUpper]
  by_cases h : 97 ≤ c.toNat ∧ c.toNat ≤ 122
  · have hsame : c.toNat - 32 - 65 + 10 = c.toNat - 97 + 10 := by omega
    rw [if_pos h, if_neg (by omega), if_neg (by omega), if_pos (by omega), if_neg (by omega),
      if_pos h, hsame]
  · rw [if_neg h]

theorem digitValue_upperDigit {d : Nat} (hd : d < 16) : digitValue (upperDigit d) = some d := by
  have hall : ∀ d < 16, digitValue (upperDigit d) = some d := by decide
  exact hall d hd

theorem length_hexDigits (width n : Nat) : (hexDigits width n).length = width := by
  induction width generalizing n with
  | zero => rfl
  | succ width ih => rw [hexDigits, List.length_append, ih, List.length_singleton]

theorem mem_hexDigits {width n : Nat} {c : Char} (h : c ∈ hexDigits width n) :
    ∃ d < 16, c = upperDigit d := by
  induction width generalizing n with
  | zero => cases h
  | succ width ih =>
    rw [hexDigits, List.mem_append, List.mem_singleton] at h
    obtain h | rfl := h
    · exact ih h
    · exact ⟨n % 16, Nat.mod_lt n (by decide), rfl⟩

/-- Digits are read in either case. -/
theorem readDigits_hexDigits {bound width n : Nat} {cs : List Char}
    (hcs : cs.map Char.toUpper = hexDigits width n) (hn : n < Nat.pow 16 width) (h : n < bound) :
    readDigits 16 bound 0 cs = .ok n := by
  induction width generalizing n cs with
  | zero =>
    obtain rfl := List.map_eq_nil_iff.1 hcs
    obtain rfl : n = 0 := Nat.lt_one_iff.1 hn
    rfl
  | succ width ih =>
    rw [hexDigits, List.map_eq_append_iff] at hcs
    obtain ⟨front, last, rfl, hfront, hlast⟩ := hcs
    obtain ⟨c, rfl, hc⟩ := List.map_eq_singleton_iff.1 hlast
    have hmod : n % 16 < 16 := Nat.mod_lt n (by decide)
    have hvalue : digitValue c = some (n % 16) := by
      rw [← digitValue_toUpper, hc, digitValue_upperDigit hmod]
    have hdiv : n / 16 < Nat.pow 16 width := by
      rw [Nat.div_lt_iff_lt_mul (by decide)]
      exact hn
    have hread := readDigits_concat (ih hfront hdiv (by omega)) hvalue hmod
      (by omega : 16 * (n / 16) + n % 16 < bound)
    rwa [Nat.div_add_mod] at hread

end Monitor68.Text.Numeral
