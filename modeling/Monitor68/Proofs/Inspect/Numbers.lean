import Monitor68.Inspect.Decode
import Monitor68.Proofs.Bytes.BigEndian
import Monitor68.Proofs.Target.Blocks
import Monitor68.Proofs.Text.Digits

/-!
# What a number is decoded to

A number can be decoded exactly if all its bytes are in memory.  Each byte
counts 256 times as much as the one behind it, and the text is a numeral of
what they make together: canonical decimal, canonical decimal of the two's
complement, or hexadecimal with two digits for each byte (`Shows`).  There
is one such numeral for each number, bytes of one width have different
values, and numbers have different numerals, so the text tells the bytes.

A number fits into a word of 32 bits.  Gathered there by shifts, and with
its sign spread by shifting it to the top of the word and back, it has the
same text (`text_eq_wordText`).
-/

namespace Monitor68

namespace Form

open Text.Numeral

/-! ## Texts of numbers -/

/-- The last bytes of a word as a signed number.  Shifted to the top of the
word and back they fill the bits above with their sign. -/
def signExtended (width : Nat) (w : UInt32) : Int32 :=
  (w <<< UInt32.ofNat (32 - 8 * width)).toInt32 >>> Int32.ofNat (32 - 8 * width)

/-- The text of a number that is held in a word. -/
def wordText (form : Form) (width : Nat) (w : UInt32) : String :=
  match form with
  | unsigned => decimal w.toNat
  | signed => signedDecimal (signExtended width w).toInt
  | hex => Text.Numeral.hex (2 * width) w.toNat

/-- A text shows a number of so many bytes. -/
def Shows (form : Form) (width n : Nat) (text : String) : Prop :=
  match form with
  | unsigned => Canonical text.toList n
  | signed => CanonicalInt text.toList (if n < 2 ^ (8 * width - 1) then n else n - 2 ^ (8 * width))
  | hex => text.length = 2 * width ∧ Denotes hexadecimals text.toList n

/-- To shift left is to multiply, and to shift back is to divide what is left of
the product in two's complement. -/
theorem toInt_shifts (w : UInt32) {k : Nat} (hk : k < 32) :
    ((w <<< UInt32.ofNat k).toInt32 >>> Int32.ofNat k).toInt =
      ((w.toNat * 2 ^ k : Nat) : Int).bmod (2 ^ 32) / 2 ^ k := by
  have hleft : (w <<< UInt32.ofNat k).toBitVec = BitVec.ofNat 32 (w.toNat * 2 ^ k) := by
    have hcount : k % 2 ^ 32 % 32 = k := by omega
    rw [← BitVec.toNat_inj]
    show (w <<< UInt32.ofNat k).toNat = _
    rw [UInt32.toNat_shiftLeft, UInt32.toNat_ofNat', hcount, Nat.shiftLeft_eq, BitVec.toNat_ofNat]
  have hcount : ∀ k < 32, ((Int32.ofNat k).toBitVec.smod 32).toNat = k := by decide
  show ((w <<< UInt32.ofNat k).toInt32 >>> Int32.ofNat k).toBitVec.toInt = _
  rw [Int32.toBitVec_shiftRight, BitVec.sshiftRight', hcount k hk, BitVec.toInt_sshiftRight]
  show (w <<< UInt32.ofNat k).toBitVec.toInt >>> k = _
  rw [hleft, BitVec.toInt_ofNat', Int.shiftRight_eq_div_pow]
  norm_cast

theorem toInt_signExtended (size : Size) {w : UInt32} (h : w.toNat < 256 ^ size.width) :
    (signExtended size.width w).toInt = twosComplement size.width w.toNat := by
  have hcount : 32 - 8 * size.width < 32 := by cases size <;> decide
  rw [signExtended, toInt_shifts w hcount, twosComplement, Int.subNatNat_eq_coe]
  generalize w.toNat = n at h
  -- In numbers both sides are linear, and whether the sign bit is set decides both.
  cases size with
  | byte =>
    have hn : n < 2 ^ 8 := h
    show Int.bmod (n * 2 ^ 24 : Nat) (2 ^ 32) / 2 ^ 24 =
      if n < 2 ^ 7 then (n : Int) else n - (2 ^ 8 : Nat)
    rw [Int.bmod]
    split <;> split <;> omega
  | word =>
    have hn : n < 2 ^ 16 := h
    show Int.bmod (n * 2 ^ 16 : Nat) (2 ^ 32) / 2 ^ 16 =
      if n < 2 ^ 15 then (n : Int) else n - (2 ^ 16 : Nat)
    rw [Int.bmod]
    split <;> split <;> omega
  | long =>
    have hn : n < 2 ^ 32 := h
    show Int.bmod (n * 2 ^ 0 : Nat) (2 ^ 32) / 2 ^ 0 =
      if n < 2 ^ 31 then (n : Int) else n - (2 ^ 32 : Nat)
    rw [Int.bmod]
    split <;> split <;> omega

/-- The text of a number is that of the word its bytes are gathered in. -/
theorem text_eq_wordText (form : Form) {size : Size} {bytes : List UInt8}
    (h : bytes.length = size.width) :
    form.text size.width (Bytes.BigEndian.value bytes) =
      form.wordText size.width (Bytes.BigEndian.gathered bytes) := by
  have hword : (Bytes.BigEndian.gathered bytes).toNat = Bytes.BigEndian.value bytes :=
    Bytes.BigEndian.toNat_gathered (by rw [h]; cases size <;> decide)
  have hlt : (Bytes.BigEndian.gathered bytes).toNat < 256 ^ size.width := by
    rw [hword, ← h]
    exact Bytes.BigEndian.value_lt bytes
  cases form with
  | unsigned | hex => rw [text, wordText, hword]
  | signed => rw [text, wordText, toInt_signExtended size hlt, hword]

theorem shows_text (form : Form) {width n : Nat} (h : n < 256 ^ width) :
    form.Shows width n (form.text width n) := by
  cases form with
  | unsigned =>
    show Canonical (String.ofList _).toList n
    rw [String.toList_ofList]
    exact canonical_toDigits n
  | signed =>
    have hcomplement : twosComplement width n =
        if n < 2 ^ (8 * width - 1) then (n : Int) else n - 2 ^ (8 * width) := by
      rw [twosComplement, Int.subNatNat_eq_coe]
      norm_cast
    show CanonicalInt _ (if _ then _ else _)
    rw [← hcomplement]
    exact canonicalInt_signedDecimal _
  | hex =>
    have hdigits : n < 16 ^ (2 * width) := by rwa [Nat.pow_mul]
    show (String.ofList _).length = _ ∧ Denotes _ (String.ofList _).toList n
    rw [String.length_ofList, String.toList_ofList]
    exact ⟨length_hexDigits _ _, denotes_hexDigits hdigits⟩

/-- A text shows one number of so many bytes. -/
theorem Shows.unique {form : Form} {width m n : Nat} {text : String} (hm : form.Shows width m text)
    (hn : form.Shows width n text) (hltm : m < 256 ^ width) (hltn : n < 256 ^ width) : m = n := by
  cases form with
  | unsigned => exact hm.denotes.unique hn.denotes
  | signed =>
    have hsame := CanonicalInt.unique hm hn
    have hrange : ((256 ^ width : Nat) : Int) = 2 ^ (8 * width) := by
      rw [pow_mul]
      norm_cast
    rw [← hrange] at hsame
    split at hsame <;> split at hsame <;> omega
  | hex => exact hm.2.unique hn.2

/-- A number of so many bytes is shown by one text. -/
theorem Shows.text_unique {form : Form} {width n : Nat} {text text' : String}
    (h : form.Shows width n text) (h' : form.Shows width n text') : text = text' := by
  rw [← String.toList_inj]
  cases form with
  | unsigned => exact Canonical.text_unique h h'
  | signed => exact CanonicalInt.text_unique h h'
  | hex =>
    obtain ⟨hlength, hdenotes⟩ := h
    obtain ⟨hlength', hdenotes'⟩ := h'
    refine hdenotes.eq_of_length hdenotes' (by decide) ?_
    rw [String.length_toList, String.length_toList, hlength, hlength']

end Form

namespace Decode

open Bytes

variable {s s' : Simulator} {address address' : UInt32} {size : Size} {form : Form}

/-! ## Numbers in memory -/

/-- A number is decoded to the text of the value that its bytes spell. -/
theorem value_number_of_spells {bytes : List UInt8} (hlength : bytes.length = size.width)
    (hwithin : address.toNat + size.width ≤ s.memory.size)
    (hspells : s.memory.Spells address.toNat bytes) :
    value s address (.number size form) = .ok (form.text size.width (BigEndian.value bytes)) := by
  have hread : Engine.readBlock s address size.width = .ok bytes :=
    (s.readBlock_eq_ok_iff address size.width bytes).2 ⟨hwithin, hlength, hspells⟩
  simp only [value, number, hread]

theorem value_number_of_not_fits (hover : ¬ address.toNat + size.width ≤ s.memory.size) :
    value s address (.number size form) = .error (.invalidAddress address) := by
  have hread : Engine.readBlock s address size.width = .error (.invalidAddress address) :=
    Simulator.readBlock_of_not_fits hover
  simp only [value, number, hread]

theorem exists_spells (h : address.toNat + size.width ≤ s.memory.size) :
    ∃ bytes : List UInt8, bytes.length = size.width ∧ s.memory.Spells address.toNat bytes := by
  obtain ⟨bytes, hread⟩ := s.exists_readBlock address h
  exact ⟨bytes, ((s.readBlock_eq_ok_iff address size.width bytes).1 hread).2⟩

/-- What a number is decoded to shows the value of its bytes. -/
theorem exists_shown_of_value_number {text : String}
    (h : value s address (.number size form) = .ok text) :
    ∃ bytes : List UInt8, bytes.length = size.width ∧ s.memory.Spells address.toNat bytes ∧
      form.Shows size.width (BigEndian.value bytes) text := by
  by_cases hwithin : address.toNat + size.width ≤ s.memory.size
  · obtain ⟨bytes, hlength, hspells⟩ := exists_spells hwithin
    rw [value_number_of_spells hlength hwithin hspells] at h
    obtain rfl := Except.ok.inj h
    exact ⟨bytes, hlength, hspells, form.shows_text (hlength ▸ BigEndian.value_lt bytes)⟩
  · rw [value_number_of_not_fits hwithin] at h
    cases h

/-- A text tells the bytes it was decoded from. -/
theorem spells_of_value_number {text : String}
    (h : value s address (.number size form) = .ok text)
    (h' : value s' address' (.number size form) = .ok text) :
    ∃ bytes : List UInt8, bytes.length = size.width ∧ s.memory.Spells address.toNat bytes ∧
      s'.memory.Spells address'.toNat bytes := by
  obtain ⟨bytes, hlength, hspells, hshows⟩ := exists_shown_of_value_number h
  obtain ⟨bytes', hlength', hspells', hshows'⟩ := exists_shown_of_value_number h'
  have hvalue := hshows.unique hshows' (hlength ▸ BigEndian.value_lt bytes)
    (hlength' ▸ BigEndian.value_lt bytes')
  obtain rfl := BigEndian.value_inj (hlength.trans hlength'.symm) hvalue
  exact ⟨bytes, hlength, hspells, hspells'⟩

/-- Decoding a number fails exactly if one of its bytes is outside memory, and
otherwise gives the one text that shows what the bytes make together, each
counting 256 times as much as the one behind it.  Words of 32 bits give the
same text.  The text tells the bytes, and a number that is written shows
when it is decoded. -/
theorem number_is_shown (s : Simulator) (address : UInt32) (size : Size) (form : Form) :
    (value s address (.number size form) = .error (.invalidAddress address) ↔
      s.memory.size < address.toNat + size.width) ∧
    (address.toNat + size.width ≤ s.memory.size →
      ∃ bytes : List UInt8, bytes.length = size.width ∧
        s.memory.Spells address.toNat bytes ∧
        (∀ text, value s address (.number size form) = .ok text ↔
          form.Shows size.width (Nat.ofDigits 256 (bytes.reverse.map UInt8.toNat)) text) ∧
        value s address (.number size form) =
          .ok (form.wordText size.width (BigEndian.gathered bytes))) ∧
    (∀ (s' : Simulator) (address' : UInt32) (text : String),
      value s address (.number size form) = .ok text →
      value s' address' (.number size form) = .ok text →
      ∀ i < size.width,
        s.memory.cell? (address.toNat + i) = s'.memory.cell? (address'.toNat + i)) ∧
    (∀ n < 256 ^ size.width, address.toNat + size.width ≤ s.memory.size →
      ∃ (s' : Simulator) (text : String),
        s.writeBlock address (BigEndian.bytes size.width n) = (s', .ok ()) ∧
        value s' address (.number size form) = .ok text ∧ form.Shows size.width n text) := by
  refine ⟨?_, ?_, ?_, ?_⟩
  · rw [← Nat.not_le]
    refine ⟨fun hfails hwithin => ?_, value_number_of_not_fits⟩
    obtain ⟨bytes, hlength, hspells⟩ := exists_spells hwithin
    rw [value_number_of_spells hlength hwithin hspells] at hfails
    cases hfails
  · intro hwithin
    obtain ⟨bytes, hlength, hspells⟩ := exists_spells hwithin
    have hshows := form.shows_text (hlength ▸ BigEndian.value_lt bytes)
    refine ⟨bytes, hlength, hspells, fun text => ?_, ?_⟩
    · rw [value_number_of_spells hlength hwithin hspells, Except.ok.injEq,
        ← BigEndian.value_eq_ofDigits]
      exact ⟨fun h => h ▸ hshows, fun h => hshows.text_unique h⟩
    · rw [value_number_of_spells hlength hwithin hspells, form.text_eq_wordText hlength]
  · intro s' address' text h h' i hi
    obtain ⟨bytes, hlength, hspells, hspells'⟩ := spells_of_value_number h h'
    rw [← hlength] at hi
    rw [hspells i hi, hspells' i hi]
  · intro n hn hwithin
    have hlength := BigEndian.length_bytes size.width n
    have hvalue : BigEndian.value (BigEndian.bytes size.width n) = n :=
      (BigEndian.value_bytes size.width n).trans (Nat.mod_eq_of_lt hn)
    have hfits : address.toNat + (BigEndian.bytes size.width n).length ≤ s.memory.size := by
      rwa [hlength]
    refine ⟨_, _, Simulator.writeBlock_of_fits hfits,
      value_number_of_spells hlength ?_ (s.memory.spells_setCells hfits), ?_⟩
    · rwa [Memory.size_setCells]
    · rw [hvalue]
      exact form.shows_text hn

/-- The last two bytes of memory, and a word that is half outside. -/
theorem last_word_is_shown :
    value (Simulator.blank 4) 3 (.number .word .signed) = .error (.invalidAddress 3) ∧
    ∃ s', (Simulator.blank 4).writeBlock 2 [0xFF, 0xFE] = (s', .ok ()) ∧
      value s' 2 (.number .word .signed) = .ok "-2" ∧ Form.signed.Shows 2 0xFFFE "-2" := by
  obtain ⟨hfails, -⟩ := number_is_shown (.blank 4) 3 .word .signed
  obtain ⟨-, -, -, hwritten⟩ := number_is_shown (.blank 4) 2 .word .signed
  obtain ⟨s', text, hwrite, hvalue, hshows⟩ := hwritten 0xFFFE (by decide) (by decide)
  obtain rfl : text = "-2" := by
    obtain ⟨rfl, -⟩ := Prod.mk.inj hwrite
    refine Except.ok.inj (hvalue.symm.trans ?_)
    decide +kernel
  exact ⟨hfails.2 (by decide), s', hwrite, hvalue, hshows⟩

end Decode

end Monitor68
