import Mathlib.Data.Nat.Digits.Lemmas
import Monitor68.Proofs.Text.Numerals

/-!
# What numerals stand for

A numeral is a row of digits, and each digit counts as often as its place
says.  `Denotes` says so without a reader, so that it can be asked of a
text whether it is the numeral of a number.  So many digits denote a number
in one way only.

In decimal every number has one numeral that begins with no superfluous
zero, and a negative one has the numeral of its magnitude behind a minus
sign; these are the `Canonical` ones.
-/

namespace Monitor68.Text.Numeral

/-! ## Rows of digits -/

/-- The digits of decimal, each at the place of its value. -/
def decimals : List Char := "0123456789".toList

/-- The digits of hexadecimal, each at the place of its value. -/
def hexadecimals : List Char := "0123456789ABCDEF".toList

/-- A row of digits, the most significant in front, stands for a number. -/
structure Denotes (digits text : List Char) (n : Nat) : Prop where
  mem : ∀ c ∈ text, c ∈ digits
  value : Nat.ofDigits digits.length (text.reverse.map digits.idxOf) = n

section Denotes

variable {digits text text' : List Char} {m n : Nat}

theorem Denotes.unique (hm : Denotes digits text m) (hn : Denotes digits text n) : m = n :=
  hm.value.symm.trans hn.value

theorem denotes_nil (digits : List Char) : Denotes digits [] 0 := ⟨by simp, rfl⟩

/-- One more digit multiplies the number by the radix and is added to it. -/
theorem Denotes.concat {c : Char} (h : Denotes digits text n) (hc : c ∈ digits) :
    Denotes digits (text ++ [c]) (digits.length * n + digits.idxOf c) where
  mem := by
    intro d hd
    rw [List.mem_append, List.mem_singleton] at hd
    obtain hd | rfl := hd
    · exact h.mem d hd
    · exact hc
  value := by
    rw [List.reverse_append, List.reverse_singleton, List.singleton_append, List.map_cons,
      Nat.ofDigits_cons, h.value, Nat.add_comm]

theorem Denotes.lt_of_mem (h : Denotes digits text n) :
    ∀ d ∈ text.reverse.map digits.idxOf, d < digits.length := by
  intro d hd
  obtain ⟨c, hc, rfl⟩ := List.mem_map.1 hd
  exact List.idxOf_lt_length_of_mem (h.mem c (List.mem_reverse.1 hc))

/-- Digits are told by their values. -/
theorem Denotes.eq_of_map_eq (h : Denotes digits text n) (h' : Denotes digits text' n)
    (hvalues : text.reverse.map digits.idxOf = text'.reverse.map digits.idxOf) : text = text' := by
  have hback : ∀ {text : List Char}, Denotes digits text n →
      (text.reverse.map digits.idxOf).map (fun d => digits[d]?) = text.reverse.map some := by
    intro text h
    rw [List.map_map]
    refine List.map_congr_left fun c hc => ?_
    exact List.getElem?_idxOf (h.mem c (List.mem_reverse.1 hc))
  have hsame : text.reverse.map some = text'.reverse.map some := by
    rw [← hback h, ← hback h', hvalues]
  exact List.reverse_injective ((Option.some_injective _).list_map hsame)

/-- So many digits denote a number in one way only. -/
theorem Denotes.eq_of_length (h : Denotes digits text n) (h' : Denotes digits text' n)
    (hradix : 1 < digits.length) (hlength : text.length = text'.length) : text = text' :=
  h.eq_of_map_eq h' (Nat.ofDigits_inj_of_len_eq hradix (by simpa using hlength) h.lt_of_mem
    h'.lt_of_mem (h.value.trans h'.value.symm))

end Denotes

/-- A number is denoted by its digits in decimal. -/
theorem denotes_toDigits (n : Nat) : Denotes decimals (Nat.toDigits 10 n) n := by
  have hdigit : ∀ d < 10, d.digitChar ∈ decimals ∧ decimals.idxOf d.digitChar = d := by decide
  induction n using Nat.strongRecOn with
  | ind n ih =>
    by_cases hn : n < 10
    · obtain ⟨hmem, hvalue⟩ := hdigit n hn
      have hone := (denotes_nil decimals).concat hmem
      rw [hvalue, Nat.mul_zero, Nat.zero_add] at hone
      rwa [Nat.toDigits_of_lt_base hn]
    · obtain ⟨hmem, hvalue⟩ := hdigit (n % 10) (Nat.mod_lt n (by decide))
      have hmore := (ih (n / 10) (by omega)).concat hmem
      have hsplit : decimals.length * (n / 10) + n % 10 = n := Nat.div_add_mod n 10
      rw [hvalue, hsplit] at hmore
      rwa [Nat.toDigits_of_base_le (by decide) (Nat.le_of_not_lt hn)]

/-- A number is denoted by so many hexadecimal digits as it fits into. -/
theorem denotes_hexDigits {width n : Nat} (h : n < 16 ^ width) :
    Denotes hexadecimals (hexDigits width n) n := by
  have hdigit : ∀ d < 16, upperDigit d ∈ hexadecimals ∧ hexadecimals.idxOf (upperDigit d) = d := by
    decide
  induction width generalizing n with
  | zero =>
    obtain rfl : n = 0 := Nat.lt_one_iff.1 h
    exact denotes_nil hexadecimals
  | succ width ih =>
    obtain ⟨hmem, hvalue⟩ := hdigit (n % 16) (Nat.mod_lt n (by decide))
    have hdiv : n / 16 < 16 ^ width := by
      rwa [Nat.div_lt_iff_lt_mul (by decide), ← Nat.pow_succ]
    have hmore := (ih hdiv).concat hmem
    have hsplit : hexadecimals.length * (n / 16) + n % 16 = n := Nat.div_add_mod n 16
    rw [hvalue, hsplit] at hmore
    exact hmore

/-! ## Decimal without superfluous zeros -/

/-- The decimal numeral of a number. -/
structure Canonical (text : List Char) (n : Nat) : Prop where
  denotes : Denotes decimals text n
  ne_nil : text ≠ []
  no_zero : text.head? = some '0' → text = ['0']

/-- The decimal numeral of a whole number. -/
inductive CanonicalInt : List Char → Int → Prop where
  | nonneg {text : List Char} {n : Nat} (h : Canonical text n) : CanonicalInt text n
  | neg {text : List Char} {n : Nat} (h : Canonical text n) (hn : 0 < n) :
      CanonicalInt ('-' :: text) (-n)

/-- No digit in front is superfluous. -/
theorem head?_toDigits {n : Nat} (hn : 0 < n) : (Nat.toDigits 10 n).head? ≠ some '0' := by
  induction n using Nat.strongRecOn with
  | ind n ih =>
    by_cases hlt : n < 10
    · have hall : ∀ d < 10, 0 < d → d.digitChar ≠ '0' := by decide
      rw [Nat.toDigits_of_lt_base hlt]
      exact fun h => hall n hlt hn (Option.some.inj h)
    · rw [Nat.toDigits_of_base_le (by decide) (Nat.le_of_not_lt hlt),
        List.head?_append_of_ne_nil _ Nat.toDigits_ne_nil]
      exact ih (n / 10) (by omega) (by omega)

theorem canonical_toDigits (n : Nat) : Canonical (Nat.toDigits 10 n) n where
  denotes := denotes_toDigits n
  ne_nil := Nat.toDigits_ne_nil
  no_zero h := by
    obtain rfl | hn := Nat.eq_zero_or_pos n
    · rfl
    · exact absurd h (head?_toDigits hn)

theorem canonicalInt_signedDecimal (i : Int) : CanonicalInt (signedDecimal i).toList i := by
  cases i with
  | ofNat n =>
    rw [signedDecimal, decimal, String.toList_ofList]
    exact .nonneg (canonical_toDigits n)
  | negSucc n =>
    have htext : (signedDecimal (.negSucc n)).toList = '-' :: Nat.toDigits 10 (n + 1) := by
      rw [signedDecimal, String.toList_append]
      exact congrArg ('-' :: ·) String.toList_ofList
    rw [htext]
    exact .neg (canonical_toDigits (n + 1)) (Nat.succ_pos n)

/-! ## One numeral for each number -/

section Unique

variable {text text' : List Char} {n : Nat}

/-- A numeral is that of one number. -/
theorem CanonicalInt.unique {i j : Int} (hi : CanonicalInt text i)
    (hj : CanonicalInt text j) : i = j := by
  have hsign : ∀ {text n}, ¬ Canonical ('-' :: text) n := fun h =>
    absurd (h.denotes.mem '-' List.mem_cons_self) (by decide)
  cases hi with
  | nonneg hm =>
    cases hj with
    | nonneg hn => rw [hm.denotes.unique hn.denotes]
    | neg => exact absurd hm hsign
  | neg hm =>
    cases hj with
    | nonneg hn => exact absurd hn hsign
    | neg hn => rw [hm.denotes.unique hn.denotes]

/-- The numeral of zero is one digit, and the digits of any other numeral are
those of the number. -/
theorem Canonical.values_eq (h : Canonical text n) :
    text = ['0'] ∧ n = 0 ∨ n ≠ 0 ∧ text.reverse.map decimals.idxOf = Nat.digits 10 n := by
  obtain ⟨c, rest, rfl⟩ := List.exists_cons_of_ne_nil h.ne_nil
  by_cases hzero : c = '0'
  · have hone : c :: rest = ['0'] := h.no_zero (congrArg some hzero)
    rw [hone] at h ⊢
    exact .inl ⟨rfl, h.denotes.value.symm⟩
  · have hfirst : decimals.idxOf c ≠ 0 := by
      have hsplit : decimals = '0' :: "123456789".toList := rfl
      rw [hsplit, List.idxOf_cons_ne _ (Ne.symm hzero)]
      exact Nat.succ_ne_zero _
    have hdigits := Nat.digits_ofDigits 10 (by decide) _ h.denotes.lt_of_mem (by
      intro _
      simpa using hfirst)
    have hvalue : Nat.ofDigits 10 ((c :: rest).reverse.map decimals.idxOf) = n := h.denotes.value
    rw [hvalue] at hdigits
    refine .inr ⟨?_, hdigits.symm⟩
    rintro rfl
    simp at hdigits

/-- A number has one numeral. -/
theorem Canonical.text_unique (h : Canonical text n) (h' : Canonical text' n) : text = text' := by
  rcases h.values_eq with ⟨htext, hzero⟩ | ⟨hne, hvalues⟩
  · rcases h'.values_eq with ⟨htext', -⟩ | ⟨hne', -⟩
    · rw [htext, htext']
    · exact absurd hzero hne'
  · rcases h'.values_eq with ⟨-, hzero⟩ | ⟨-, hvalues'⟩
    · exact absurd hzero hne
    · exact h.denotes.eq_of_map_eq h'.denotes (hvalues.trans hvalues'.symm)

theorem CanonicalInt.text_unique {i : Int} (h : CanonicalInt text i) (h' : CanonicalInt text' i) :
    text = text' := by
  cases h with
  | @nonneg _ m hm =>
    generalize hi : (m : Int) = i at h'
    cases h' with
    | nonneg hn =>
      obtain rfl := Int.ofNat.inj hi
      exact hm.text_unique hn
    | neg hn hpos => omega
  | @neg _ m hm hmpos =>
    generalize hi : -(m : Int) = i at h'
    cases h' with
    | nonneg hn => omega
    | @neg _ k hn hpos =>
      obtain rfl : m = k := by omega
      rw [hm.text_unique hn]

end Unique

end Monitor68.Text.Numeral
