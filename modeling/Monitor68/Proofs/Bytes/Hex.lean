import Mathlib.Data.List.TakeWhile
import Monitor68.Bytes.Hex.Lemmas
import Monitor68.Proofs.Text.Digits
import Monitor68.Proofs.Text.Lines

/-!
# What a hexadecimal field carries

A field carries bytes exactly if it is made of pairs of digits, and then it
carries the bytes that the pairs denote (`Carries`).  Every other field has
one fault: an odd number of bytes or, if their number is even, the leftmost
byte that is no digit.  `decode_cases` meets a field in one of these three
forms, and a lemma for each says what is made of it.  What is made of it does
not depend on the case of its letters (`decode_map_raised`).
-/

namespace Monitor68.Bytes.Hex

open Monitor68.Text Numeral

/-- The character of a byte, in upper case if it is a letter of ASCII. -/
def upper (byte : UInt8) : Char := (Char.ofNat byte.toNat).toUpper

/-- A byte that is a hexadecimal digit of either case. -/
def IsDigit (byte : UInt8) : Prop := upper byte ∈ hexadecimals

instance : DecidablePred IsDigit := fun byte =>
  inferInstanceAs (Decidable (upper byte ∈ hexadecimals))

/-- A field carries bytes, each of which two digits denote. -/
inductive Carries : List UInt8 → List UInt8 → Prop where
  | nil : Carries [] []
  | pair {high low b : UInt8} {field bytes : List UInt8}
      (denotes : Denotes hexadecimals [upper high, upper low] b.toNat)
      (rest : Carries field bytes) : Carries (high :: low :: field) (b :: bytes)

/-! ## Digits -/

/-- What holds of all bytes is checked code by code. -/
@[elab_as_elim]
theorem forall_byte {P : UInt8 → Prop} (h : ∀ n < 256, P (UInt8.ofNat n)) (byte : UInt8) :
    P byte := by
  have hbyte := h byte.toNat byte.toNat_lt
  rwa [UInt8.ofNat_toNat] at hbyte

/-- What holds of all characters below a bound is checked code by code. -/
@[elab_as_elim]
theorem forall_char_lt {P : Char → Prop} {bound : Nat} (h : ∀ n < bound, P (Char.ofNat n))
    (c : Char) (hc : c.toNat < bound) : P c := by
  have hchar := h c.toNat hc
  rwa [Char.ofNat_toNat] at hchar

theorem nibble_eq (byte : UInt8) :
    nibble byte = if IsDigit byte then some (hexadecimals.idxOf (upper byte)) else none :=
  forall_byte (by decide +kernel) byte

theorem nibbleAt_digit {byte : UInt8} (h : IsDigit byte) (position : Nat) :
    nibbleAt byte position = .ok (hexadecimals.idxOf (upper byte)) := by
  rw [nibbleAt, nibble_eq, if_pos h]

theorem nibbleAt_other {byte : UInt8} (h : ¬ IsDigit byte) (position : Nat) :
    nibbleAt byte position = .error (.invalidByte byte position) := by
  rw [nibbleAt, nibble_eq, if_neg h]

/-- Two digits denote 16 times the value of the first and the value of the
second. -/
theorem denotes_pair_iff {high low : UInt8} {n : Nat} :
    Denotes hexadecimals [upper high, upper low] n ↔
      IsDigit high ∧ IsDigit low ∧
        hexadecimals.idxOf (upper high) * 16 + hexadecimals.idxOf (upper low) = n := by
  have hvalue : Nat.ofDigits hexadecimals.length
      ([upper high, upper low].reverse.map hexadecimals.idxOf) =
        hexadecimals.idxOf (upper high) * 16 + hexadecimals.idxOf (upper low) := by
    show Nat.ofDigits 16 [hexadecimals.idxOf (upper low), hexadecimals.idxOf (upper high)] = _
    rw [Nat.ofDigits_cons, Nat.ofDigits_singleton, Nat.add_comm, Nat.mul_comm]
  constructor
  · intro h
    exact ⟨h.mem _ (by simp), h.mem _ (by simp), hvalue ▸ h.value⟩
  · intro ⟨hhigh, hlow, hn⟩
    refine ⟨fun c hc => ?_, hvalue.trans hn⟩
    rcases List.mem_pair.1 hc with rfl | rfl
    · exact hhigh
    · exact hlow

/-- Two digits denote one byte. -/
theorem exists_denotes {high low : UInt8} (hhigh : IsDigit high) (hlow : IsDigit low) :
    ∃ b : UInt8, Denotes hexadecimals [upper high, upper low] b.toNat := by
  have hhigh' : hexadecimals.idxOf (upper high) < 16 := List.idxOf_lt_length_of_mem hhigh
  have hlow' : hexadecimals.idxOf (upper low) < 16 := List.idxOf_lt_length_of_mem hlow
  refine ⟨UInt8.ofNat (hexadecimals.idxOf (upper high) * 16 + hexadecimals.idxOf (upper low)),
    denotes_pair_iff.2 ⟨hhigh, hlow, ?_⟩⟩
  rw [UInt8.toNat_ofNat_of_lt' (show _ < 256 by omega)]

/-! ## Fields -/

theorem Carries.length_eq {field bytes : List UInt8} (h : Carries field bytes) :
    field.length = 2 * bytes.length := by
  induction h with
  | nil => rfl
  | pair _ _ ih =>
    rw [List.length_cons, List.length_cons, List.length_cons, ih]
    omega

/-- Pairs of digits are read as the bytes they denote, wherever they stand. -/
theorem decodePairs_of_carries {field bytes : List UInt8} (h : Carries field bytes)
    (position : Nat) : decodePairs position field = .ok bytes := by
  induction h generalizing position with
  | nil => rfl
  | @pair high low b field bytes denotes _ ih =>
    obtain ⟨hhigh, hlow, hvalue⟩ := denotes_pair_iff.1 denotes
    rw [decodePairs, nibbleAt_digit hhigh, nibbleAt_digit hlow]
    simp only [ih, hvalue, UInt8.ofNat_toNat, Except.map]

/-- Pairs of digits in front of a byte that is none are passed over. -/
theorem decodePairs_of_invalid {front back : List UInt8} {byte : UInt8}
    (heven : (front ++ byte :: back).length % 2 = 0) (hfront : ∀ b ∈ front, IsDigit b)
    (hbyte : ¬ IsDigit byte) (position : Nat) :
    decodePairs position (front ++ byte :: back) =
      .error (.invalidByte byte (position + front.length)) := by
  match front with
  | [] =>
    obtain ⟨low, rest, rfl⟩ : ∃ low rest, back = low :: rest := by
      refine List.exists_cons_of_ne_nil fun hback => ?_
      rw [hback] at heven
      cases heven
    rw [List.nil_append, decodePairs, nibbleAt_other hbyte]
    rfl
  | [high] =>
    rw [List.cons_append, List.nil_append, decodePairs, nibbleAt_digit (hfront high (by simp)),
      nibbleAt_other hbyte]
    rfl
  | high :: low :: front =>
    obtain ⟨hhigh, hlow, hrest⟩ : IsDigit high ∧ IsDigit low ∧ ∀ b ∈ front, IsDigit b := by
      simpa using hfront
    have heven' : (front ++ byte :: back).length % 2 = 0 := by
      simp only [List.cons_append, List.length_cons] at heven ⊢
      omega
    have hplace : position + 2 + front.length = position + (high :: low :: front).length := by
      simp only [List.length_cons]
      omega
    rw [List.cons_append, List.cons_append, decodePairs, nibbleAt_digit hhigh,
      nibbleAt_digit hlow]
    simp only [decodePairs_of_invalid heven' hrest hbyte (position + 2), hplace, Except.map]

theorem decode_of_odd {field : List UInt8} (h : field.length % 2 = 1) :
    decode field = .error .oddLength :=
  if_pos h

theorem decode_of_carries {field bytes : List UInt8} (h : Carries field bytes) :
    decode field = .ok bytes := by
  rw [decode, if_neg (by rw [h.length_eq]; omega), decodePairs_of_carries h]

theorem decode_of_invalid {front back : List UInt8} {byte : UInt8}
    (heven : (front ++ byte :: back).length % 2 = 0) (hfront : ∀ b ∈ front, IsDigit b)
    (hbyte : ¬ IsDigit byte) :
    decode (front ++ byte :: back) = .error (.invalidByte byte front.length) := by
  rw [decode, if_neg (by omega), decodePairs_of_invalid heven hfront hbyte, Nat.zero_add]

/-- An even number of digits carries bytes. -/
theorem exists_carries {field : List UInt8} (heven : field.length % 2 = 0)
    (h : ∀ b ∈ field, IsDigit b) : ∃ bytes, Carries field bytes := by
  match field with
  | [] => exact ⟨[], .nil⟩
  | high :: low :: field =>
    obtain ⟨hhigh, hlow, hrest⟩ : IsDigit high ∧ IsDigit low ∧ ∀ b ∈ field, IsDigit b := by
      simpa using h
    have heven' : field.length % 2 = 0 := by
      simp only [List.length_cons] at heven
      omega
    obtain ⟨b, hb⟩ := exists_denotes hhigh hlow
    obtain ⟨bytes, hbytes⟩ := exists_carries heven' hrest
    exact ⟨b :: bytes, .pair hb hbytes⟩

/-- A field is of odd length, or has a leftmost byte that is no digit, or
carries bytes. -/
theorem decode_cases (field : List UInt8) :
    field.length % 2 = 1 ∨
    (field.length % 2 = 0 ∧ ∃ front byte back, field = front ++ byte :: back ∧
      (∀ b ∈ front, IsDigit b) ∧ ¬ IsDigit byte) ∨
    ∃ bytes, Carries field bytes := by
  by_cases hodd : field.length % 2 = 1
  · exact .inl hodd
  have heven : field.length % 2 = 0 := by omega
  let digit : UInt8 → Bool := fun b => decide (IsDigit b)
  cases hrest : field.dropWhile digit with
  | nil =>
    rw [List.dropWhile_eq_nil_iff] at hrest
    exact .inr (.inr (exists_carries heven fun b hb => of_decide_eq_true (hrest b hb)))
  | cons byte back =>
    have hbyte := List.head?_dropWhile_not digit field
    rw [hrest] at hbyte
    refine .inr (.inl ⟨heven, field.takeWhile digit, byte, back, ?_, fun b hb => ?_,
      of_decide_eq_false hbyte⟩)
    · rw [← hrest, List.takeWhile_append_dropWhile]
    · have hdigit : digit b = true := List.mem_takeWhile_imp hb
      exact of_decide_eq_true hdigit

/-- A field that is read carries what is read. -/
theorem carries_of_decode {field bytes : List UInt8} (h : decode field = .ok bytes) :
    Carries field bytes := by
  obtain hodd | ⟨heven, front, byte, back, rfl, hfront, hbyte⟩ | ⟨other, hother⟩ :=
    decode_cases field
  · rw [decode_of_odd hodd] at h
    cases h
  · rw [decode_of_invalid heven hfront hbyte] at h
    cases h
  · rw [decode_of_carries hother] at h
    cases h
    exact hother

/-! ## Written fields -/

/-- Each byte is two digits. -/
theorem encode_cons (b : UInt8) (bs : List UInt8) :
    encode (b :: bs) = Numeral.upperDigit (b.toNat / 16 % 16) ::
      Numeral.upperDigit (b.toNat % 16) :: encode bs := rfl

theorem length_encode (bytes : List UInt8) : (encode bytes).length = 2 * bytes.length := by
  induction bytes with
  | nil => rfl
  | cons b bs ih =>
    rw [encode_cons, List.length_cons, List.length_cons, List.length_cons, ih]
    omega

/-- Between two bytes the digits are cut as the bytes are. -/
theorem take_encode (bytes : List UInt8) (n : Nat) :
    (encode bytes).take (2 * n) = encode (bytes.take n) := by
  induction bytes generalizing n with
  | nil => rw [List.take_nil]; exact List.take_nil
  | cons b bs ih =>
    cases n with
    | zero => rfl
    | succ n =>
      rw [encode_cons, Nat.mul_succ, List.take_succ_cons, List.take_succ_cons, ih,
        List.take_succ_cons, encode_cons]

/-! ## The case of letters -/

/-- A letter that is a digit in upper case, and any other character itself. -/
def raised (c : Char) : Char := if 'a' ≤ c ∧ c ≤ 'f' then c.toUpper else c

/-- The byte of a raised letter, and any other byte itself. -/
def raisedByte (byte : UInt8) : UInt8 :=
  if 0x61 ≤ byte ∧ byte ≤ 0x66 then byte - 0x20 else byte

theorem nibble_raisedByte (byte : UInt8) :
    nibble (raisedByte byte) = nibble byte ∧ (nibble byte = none → raisedByte byte = byte) :=
  forall_byte (by decide +kernel) byte

theorem nibbleAt_raisedByte (byte : UInt8) (position : Nat) :
    nibbleAt (raisedByte byte) position = nibbleAt byte position := by
  obtain ⟨hsame, hother⟩ := nibble_raisedByte byte
  rw [nibbleAt, nibbleAt, hsame]
  split
  · rfl
  · rename_i hnone
    rw [hother hnone]

theorem decodePairs_map_raisedByte (position : Nat) (field : List UInt8) :
    decodePairs position (field.map raisedByte) = decodePairs position field := by
  match field with
  | [] => rfl
  | [_] => rfl
  | high :: low :: field =>
    rw [List.map_cons, List.map_cons, decodePairs, decodePairs, nibbleAt_raisedByte,
      nibbleAt_raisedByte, decodePairs_map_raisedByte (position + 2) field]

/-- Outside ASCII no byte of a character is that of a letter. -/
theorem utf8EncodeChar_raised (c : Char) :
    String.utf8EncodeChar (raised c) = (String.utf8EncodeChar c).map raisedByte := by
  by_cases hc : c.toNat < 128
  · exact forall_char_lt (by decide +kernel) c hc
  · have hself : raised c = c := by
      refine if_neg fun hletter => hc ?_
      have hle : c.toNat ≤ 'f'.toNat := hletter.2
      exact Nat.lt_of_le_of_lt hle (by decide)
    have hbytes : (String.utf8EncodeChar c).map raisedByte = (String.utf8EncodeChar c).map id := by
      refine List.map_congr_left fun b hb => if_neg fun hletter => ?_
      have hupper := le_of_mem_utf8EncodeChar (Nat.le_of_not_lt hc) hb
      have hle : b.toNat ≤ 0x66 := hletter.2
      omega
    rw [hself, hbytes, List.map_id]

theorem encodeUtf8_map_raised (cs : List Char) :
    encodeUtf8 (cs.map raised) = (encodeUtf8 cs).map raisedByte := by
  simp only [encodeUtf8, List.flatMap_map, List.map_flatMap, utf8EncodeChar_raised]

/-- Texts that differ in the case of digits are read as the same bytes, or with
the same complaint. -/
theorem decode_map_raised (cs : List Char) :
    decode (encodeUtf8 (cs.map raised)) = decode (encodeUtf8 cs) := by
  rw [encodeUtf8_map_raised, decode, decode, List.length_map, decodePairs_map_raisedByte]

/-- Only a letter is changed by raising. -/
theorem eq_of_raised_eq {c a : Char} (h : raised c = a) (ha : a ∉ "ABCDEF".toList) : c = a := by
  unfold raised at h
  split at h
  · rename_i hletter
    have hlt : c.toNat < 103 := Nat.lt_succ_of_le hletter.2
    have hupper : 'a' ≤ c → c.toUpper ∈ "ABCDEF".toList :=
      forall_char_lt (by decide +kernel) c hlt
    exact absurd (h ▸ hupper hletter.1) ha
  · exact h

end Monitor68.Bytes.Hex
