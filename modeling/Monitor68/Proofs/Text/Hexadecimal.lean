import Monitor68.Proofs.Bytes.Hex

/-!
# Hexadecimal numerals of any length

A hexadecimal numeral has digits of either case and as many zeros in front as
anyone likes, and one plus sign may stand before them.  It is read as the
number that its digits denote if that fits, and otherwise it is too large
(`readWord_eq_ok_iff` and `readWord_of_large`).

Reading goes from the first digit to the last and gives up at the first
number that does not fit.  The numbers only grow on the way, so it is enough
to look at the whole; both facts are inductions on the digits from the last
one.
-/

namespace Monitor68.Text.Numeral

/-- A row of hexadecimal digits of either case, and the number it stands for. -/
structure HexDigits (digits : List Char) (n : Nat) : Prop where
  ne_nil : digits ≠ []
  denotes : Denotes hexadecimals (digits.map Char.toUpper) n

/-- A hexadecimal numeral: digits, and one plus sign before them if that is
wanted. -/
inductive HexNumeral : List Char → Nat → Prop where
  | plain {digits : List Char} {n : Nat} (h : HexDigits digits n) : HexNumeral digits n
  | signed {digits : List Char} {n : Nat} (h : HexDigits digits n) : HexNumeral ('+' :: digits) n

/-! ## Digits -/

/-- The value of a digit is its place among the digits. -/
theorem filter_digitValue (c : Char) :
    (digitValue c).filter (· < 16) =
      if c.toUpper ∈ hexadecimals then some (hexadecimals.idxOf c.toUpper) else none := by
  by_cases hc : c.toNat < 128
  · revert hc
    exact Bytes.Hex.forall_char_lt (by decide +kernel) c
  · have hascii : hexadecimals.all (·.toNat < 128) = true := by decide
    have hother : c.toUpper ∉ hexadecimals := by
      intro h
      have hlt := of_decide_eq_true (List.all_eq_true.1 hascii _ h)
      rw [toNat_toUpper, if_neg (by omega)] at hlt
      exact hc hlt
    rw [if_neg hother, digitValue_eq, if_neg (by omega), if_neg (by omega), if_neg (by omega)]
    rfl

section Reading

variable {bound n : Nat} {cs digits : List Char}

/-- Digits denote some number. -/
theorem exists_denotes (h : ∀ c ∈ digits, c.toUpper ∈ hexadecimals) :
    ∃ n, Denotes hexadecimals (digits.map Char.toUpper) n := by
  refine ⟨_, fun c hc => ?_, rfl⟩
  obtain ⟨d, hd, rfl⟩ := List.mem_map.1 hc
  exact h d hd

theorem mem_of_denotes (h : Denotes hexadecimals (digits.map Char.toUpper) n) :
    ∀ c ∈ digits, c.toUpper ∈ hexadecimals :=
  fun _ hc => h.mem _ (List.mem_map_of_mem hc)

/-- Digits are read as the number they denote, if that is below the bound. -/
theorem readDigits_of_denotes (hbound : 0 < bound)
    (h : Denotes hexadecimals (digits.map Char.toUpper) n) :
    readDigits 16 bound 0 digits = if n < bound then .ok n else .error .tooLarge := by
  induction digits using List.reverseRecOn generalizing n with
  | nil =>
    obtain rfl : 0 = n := (denotes_nil hexadecimals).unique h
    rw [if_pos hbound]
    rfl
  | append_singleton digits c ih =>
    have hmem := mem_of_denotes h
    have hc : c.toUpper ∈ hexadecimals := hmem c (by simp)
    obtain ⟨m, hm⟩ := exists_denotes fun d hd => hmem d (List.mem_append_left [c] hd)
    obtain rfl : 16 * m + hexadecimals.idxOf c.toUpper = n := by
      rw [List.map_append] at h
      exact (hm.concat hc).unique h
    rw [readDigits_append, ih hm]
    by_cases hfits : m < bound
    · rw [if_pos hfits]
      show readDigits 16 bound m [c] = _
      rw [readDigits, filter_digitValue, if_pos hc]
      rfl
    · rw [if_neg hfits, if_neg (by omega)]
      rfl

/-- Characters that are not all digits are not read. -/
theorem readDigits_of_other (h : ¬ ∀ c ∈ cs, c.toUpper ∈ hexadecimals) (value : Nat) :
    ∃ fault, readDigits 16 bound value cs = .error fault := by
  induction cs generalizing value with
  | nil => exact absurd (fun c hc => nomatch hc) h
  | cons c cs ih =>
    rw [readDigits, filter_digitValue]
    by_cases hc : c.toUpper ∈ hexadecimals
    · have hrest : ¬ ∀ c ∈ cs, c.toUpper ∈ hexadecimals := fun hrest =>
        h (List.forall_mem_cons.2 ⟨hc, hrest⟩)
      rw [if_pos hc]
      dsimp only
      split
      · exact ih hrest _
      · exact ⟨_, rfl⟩
    · rw [if_neg hc]
      exact ⟨_, rfl⟩

theorem readDigits_eq_ok_iff (hbound : 0 < bound) :
    readDigits 16 bound 0 digits = .ok n ↔
      Denotes hexadecimals (digits.map Char.toUpper) n ∧ n < bound := by
  constructor
  · intro h
    by_cases hdigits : ∀ c ∈ digits, c.toUpper ∈ hexadecimals
    · obtain ⟨m, hm⟩ := exists_denotes hdigits
      rw [readDigits_of_denotes hbound hm] at h
      split at h
      · cases h
        exact ⟨hm, ‹_›⟩
      · cases h
    · obtain ⟨fault, hfault⟩ := readDigits_of_other hdigits 0
      cases h.symm.trans hfault
  · rintro ⟨hdenotes, hlt⟩
    rw [readDigits_of_denotes hbound hdenotes, if_pos hlt]

/-! ## Numerals -/

/-- A numeral is read as its number, if that is below the bound. -/
theorem read_of_numeral (hbound : 0 < bound) (h : HexNumeral cs n) :
    read 16 bound cs = if n < bound then .ok n else .error .tooLarge := by
  cases h with
  | plain h =>
    rw [← readDigits_of_denotes hbound h.denotes, read]
    · exact fun hnil => h.ne_nil hnil
    · rintro rfl
      exact absurd (mem_of_denotes h.denotes '+' List.mem_cons_self) (by decide)
    · rintro rest rfl
      exact absurd (mem_of_denotes h.denotes '+' List.mem_cons_self) (by decide)
  | signed h =>
    rw [← readDigits_of_denotes hbound h.denotes, read]
    exact fun hnil => h.ne_nil hnil

/-- Nothing but numerals is read. -/
theorem numeral_of_read (hbound : 0 < bound) (h : read 16 bound cs = .ok n) :
    HexNumeral cs n ∧ n < bound := by
  unfold read at h
  split at h
  · cases h
  · cases h
  · rename_i digits hne
    obtain ⟨hdenotes, hlt⟩ := (readDigits_eq_ok_iff hbound).1 h
    exact ⟨.signed ⟨fun hnil => hne (by rw [hnil]), hdenotes⟩, hlt⟩
  · rename_i hne _ _
    obtain ⟨hdenotes, hlt⟩ := (readDigits_eq_ok_iff hbound).1 h
    exact ⟨.plain ⟨hne, hdenotes⟩, hlt⟩

/-- A word is read from its numerals and from nothing else. -/
theorem readWord_eq_ok_iff {w : UInt32} : readWord 16 cs = .ok w ↔ HexNumeral cs w.toNat := by
  have hbound : 0 < UInt32.size := by decide
  constructor
  · intro h
    rw [readWord] at h
    cases hread : read 16 UInt32.size cs with
    | error fault => rw [hread] at h; cases h
    | ok n =>
      obtain ⟨hnumeral, hlt⟩ := numeral_of_read hbound hread
      rw [hread] at h
      cases h
      rwa [UInt32.toNat_ofNat_of_lt' hlt]
  · intro h
    rw [readWord, read_of_numeral hbound h, if_pos w.toNat_lt]
    exact congrArg Except.ok UInt32.ofNat_toNat

/-- A numeral of more than 32 bits is too large. -/
theorem readWord_of_large (h : HexNumeral cs n) (hlarge : UInt32.size ≤ n) :
    readWord 16 cs = .error .tooLarge := by
  rw [readWord, read_of_numeral (by decide) h, if_neg (Nat.not_lt.2 hlarge)]
  rfl

end Reading

end Monitor68.Text.Numeral
