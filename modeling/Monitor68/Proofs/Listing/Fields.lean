import Monitor68.Listing.Line
import Monitor68.Proofs.Text.Numerals
import Monitor68.Proofs.Text.Words

/-!
# Fields of a printed line

The fields that a reader of listings looks for, as a printer writes them: an
address in eight hexadecimal digits of either case, and the number of a
source line in decimal with a colon behind it.  Each is one word and is
read as what was written.
-/

namespace Monitor68.Listing

open Monitor68.Text

/-! ## Fields -/

theorem isHexDigit_iff (c : Char) :
    isHexDigit c = true ↔ (48 ≤ c.toNat ∧ c.toNat ≤ 57) ∨ (97 ≤ c.toNat ∧ c.toNat ≤ 102) ∨
      (65 ≤ c.toNat ∧ c.toNat ≤ 70) := by
  simp only [isHexDigit, Bool.or_eq_true, Bool.and_eq_true, decide_eq_true_eq, or_assoc]
  rfl

theorem isHexDigit_toUpper (c : Char) : isHexDigit c.toUpper = isHexDigit c := by
  rw [Bool.eq_iff_iff, isHexDigit_iff, isHexDigit_iff, Numeral.toNat_toUpper]
  split <;> omega

theorem isHexDigit_upperDigit {d : Nat} (hd : d < 16) :
    isHexDigit (Numeral.upperDigit d) = true := by
  have hall : ∀ d < 16, isHexDigit (Numeral.upperDigit d) = true := by decide
  exact hall d hd

/-- A character of ASCII that shows is not white space. -/
theorem not_blank_of_range {c : Char} (hlow : 33 ≤ c.toNat) (hhigh : c.toNat ≤ 126) :
    isBlank c = false := by
  simp [isBlank]
  omega

theorem not_blank_of_isHexDigit {c : Char} (h : isHexDigit c = true) : isBlank c = false := by
  rw [isHexDigit_iff] at h
  exact not_blank_of_range (by omega) (by omega)

/-- An address as eight hexadecimal digits, each of either case. -/
structure AddressDigits where
  address : UInt32
  digits : List Char
  spelled : digits.map Char.toUpper = Numeral.hexDigits 8 address.toNat

namespace AddressDigits

variable (a : AddressDigits)

theorem isHexDigit_of_mem {c : Char} (h : c ∈ a.digits) : isHexDigit c = true := by
  have hmem : c.toUpper ∈ Numeral.hexDigits 8 a.address.toNat :=
    a.spelled ▸ List.mem_map_of_mem h
  obtain ⟨d, hd, hc⟩ := Numeral.mem_hexDigits hmem
  rw [← isHexDigit_toUpper, hc, isHexDigit_upperDigit hd]

theorem length_digits : a.digits.length = 8 := by
  rw [← List.length_map Char.toUpper, a.spelled, Numeral.length_hexDigits]

/-- The digits are read as the address. -/
theorem address?_digits : address? a.digits = some a.address := by
  have hall : a.digits.all isHexDigit = true := List.all_eq_true.2 fun c => a.isHexDigit_of_mem
  have hne : a.digits ≠ [] := List.ne_nil_of_length_eq_add_one a.length_digits
  have hsign : '+' ∉ a.digits := fun h => absurd (a.isHexDigit_of_mem h) (by decide)
  have hread : Numeral.readDigits 16 UInt32.size 0 a.digits = .ok a.address.toNat :=
    Numeral.readDigits_hexDigits a.spelled a.address.toNat_lt a.address.toNat_lt
  rw [address?, if_pos ⟨a.length_digits, hall⟩, Numeral.readWord_of_readDigits hne hsign hread]
  rfl

/-- With a text in front that has no white space in it, the digits are a
word. -/
theorem isWord_append {front : List Char} (h : ∀ c ∈ front, isBlank c = false) :
    IsWord (front ++ a.digits) := by
  have hne : a.digits ≠ [] := List.ne_nil_of_length_eq_add_one a.length_digits
  refine ⟨List.append_ne_nil_of_right_ne_nil front hne, fun c hc => ?_⟩
  obtain hc | hc := List.mem_append.1 hc
  · exact h c hc
  · exact not_blank_of_isHexDigit (a.isHexDigit_of_mem hc)

end AddressDigits

/-! ## Line marks -/

theorem isDigit_iff (c : Char) : c.isDigit = true ↔ 48 ≤ c.toNat ∧ c.toNat ≤ 57 := by
  simp only [Char.isDigit, Bool.and_eq_true, decide_eq_true_eq]
  rfl

theorem isPunctuation_iff (c : Char) :
    isPunctuation c = true ↔ (33 ≤ c.toNat ∧ c.toNat ≤ 47) ∨ (58 ≤ c.toNat ∧ c.toNat ≤ 64) ∨
      (91 ≤ c.toNat ∧ c.toNat ≤ 96) ∨ (123 ≤ c.toNat ∧ c.toNat ≤ 126) := by
  simp only [isPunctuation, Bool.or_eq_true, Bool.and_eq_true, decide_eq_true_eq, or_assoc]
  rfl

/-- A line mark is one digit or more and a colon. -/
theorem isLineMark_iff (word : List Char) :
    isLineMark word = true ↔
      ∃ digits ≠ [], (∀ c ∈ digits, c.isDigit = true) ∧ word = digits ++ [':'] := by
  have hdigit : ∀ c : Char, ('0' ≤ c && c ≤ '9') = c.isDigit := fun c => by
    rw [Bool.eq_iff_iff, isDigit_iff, Bool.and_eq_true, decide_eq_true_eq, decide_eq_true_eq]
    rfl
  unfold isLineMark
  simp only [hdigit]
  constructor
  · intro h
    split at h
    · rename_i d ds hreverse
      refine ⟨(d :: ds).reverse, by simp, fun c hc => ?_, ?_⟩
      · exact List.all_eq_true.1 h c (List.mem_reverse.1 hc)
      · rw [← List.reverse_reverse word, hreverse, List.reverse_cons]
    · cases h
  · intro h
    obtain ⟨digits, hne, hall, rfl⟩ := h
    obtain ⟨d, ds, hds⟩ := List.exists_cons_of_ne_nil (mt List.reverse_eq_nil_iff.1 hne)
    rw [List.reverse_append, hds]
    show (d :: ds).all Char.isDigit = true
    rw [← hds, List.all_eq_true]
    exact fun c hc => hall c (List.mem_reverse.1 hc)

/-- The mark of a source line: its number in decimal and a colon. -/
def lineMark (row : UInt32) : List Char := Nat.toDigits 10 row.toNat ++ [':']

theorem isLineMark_lineMark (row : UInt32) : isLineMark (lineMark row) = true :=
  (isLineMark_iff _).2 ⟨_, Nat.toDigits_ne_nil,
    fun _ hc => Nat.isDigit_of_mem_toDigits (by decide) (by decide) hc, rfl⟩

theorem isWord_lineMark (row : UInt32) : IsWord (lineMark row) := by
  refine ⟨by simp [lineMark], fun c hc => ?_⟩
  rw [lineMark, List.mem_append, List.mem_singleton] at hc
  obtain hc | rfl := hc
  · have hdigit := (isDigit_iff c).1 (Nat.isDigit_of_mem_toDigits (by decide) (by decide) hc)
    exact not_blank_of_range (by omega) (by omega)
  · rfl

/-- A line mark is read as the number of its line. -/
theorem lineNumber?_lineMark (row : UInt32) : lineNumber? (lineMark row) = some row := by
  obtain ⟨d, ds, hds⟩ := List.exists_cons_of_ne_nil
    (mt List.reverse_eq_nil_iff.1 (Nat.toDigits_ne_nil (n := row.toNat) (b := 10)))
  have hd : d.isDigit = true := Nat.isDigit_of_mem_toDigits (n := row.toNat) (b := 10) (by decide)
    (by decide) (List.mem_reverse.1 (hds ▸ List.mem_cons_self))
  have hletter : isPunctuation d = false := by
    rw [isDigit_iff] at hd
    rw [← Bool.not_eq_true, isPunctuation_iff]
    omega
  have hstripped : (lineMark row).reverse.dropWhile isPunctuation =
      (Nat.toDigits 10 row.toNat).reverse := by
    rw [lineMark, List.reverse_append, hds]
    show List.dropWhile isPunctuation (':' :: d :: ds) = d :: ds
    rw [List.dropWhile_cons_of_pos rfl, List.dropWhile_cons_of_neg (by simp [hletter])]
  rw [lineNumber?, hstripped, List.reverse_reverse, Numeral.readWord_decimal]
  rfl

end Monitor68.Listing
