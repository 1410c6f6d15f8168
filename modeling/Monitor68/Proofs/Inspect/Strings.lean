import Monitor68.Inspect.Decode

/-!
# What a string is decoded to

A string is scanned byte by byte until a byte decides the answer.  Said of
the bytes, the answer is one of four: the text in front of a zero byte; or,
where only characters of ASCII have come before it, the first byte that is
none, the first address without a byte, or the end of the scan.

The byte at an offset is a function here, so that the bytes may be those of
one memory or of several.
-/

namespace Monitor68.Decode

/-- The character of a byte. -/
def charOf (b : UInt8) : Char := Char.ofNat b.toNat

/-- From offset zero on there are these bytes, and they are characters of a
string. -/
def Spells (byteAt : Nat → Option UInt8) (bytes : List UInt8) : Prop :=
  ∀ i (h : i < bytes.length), byteAt i = some bytes[i] ∧ bytes[i] ≠ 0 ∧ isAscii bytes[i] = true

theorem Spells.concat {byteAt : Nat → Option UInt8} {bytes : List UInt8} {b : UInt8}
    (h : Spells byteAt bytes) (hb : byteAt bytes.length = some b) (hne : b ≠ 0)
    (hascii : isAscii b = true) : Spells byteAt (bytes ++ [b]) := by
  intro i hi
  rw [List.length_append, List.length_singleton] at hi
  obtain hlt | rfl := Nat.lt_or_eq_of_le (Nat.le_of_lt_succ hi)
  · rw [List.getElem_append_left hlt]
    exact h i hlt
  · rw [List.getElem_concat_length rfl]
    exact ⟨hb, hne, hascii⟩

/-- What the bytes are when a string is decoded to an answer. -/
inductive Tells (byteAt : Nat → Option UInt8) (address : UInt32) :
    Except DecodeError String → Prop where
  | text {bytes : List UInt8} (spelled : Spells byteAt bytes)
      (short : bytes.length < longestString) (ended : byteAt bytes.length = some 0) :
      Tells byteAt address (.ok (String.ofList (bytes.map charOf)))
  | notAscii {bytes : List UInt8} {b : UInt8} (spelled : Spells byteAt bytes)
      (short : bytes.length < longestString) (met : byteAt bytes.length = some b)
      (foreign : isAscii b = false) : Tells byteAt address (.error (.notAscii b))
  | invalidAddress {bytes : List UInt8} (spelled : Spells byteAt bytes)
      (short : bytes.length < longestString) (missing : byteAt bytes.length = none) :
      Tells byteAt address (.error (.invalidAddress address))
  | unterminated {bytes : List UInt8} (spelled : Spells byteAt bytes)
      (long : bytes.length = longestString) : Tells byteAt address (.error .unterminated)

section Scan

variable {byteAt : Nat → Option UInt8} {address : UInt32} {bytes : List UInt8} {left : Nat}

/-- A scan goes past the characters of a string. -/
theorem scanString_append (front back : List UInt8) (h : Spells byteAt (front ++ back))
    (left : Nat) :
    scanString byteAt address (back.length + left) front.length (front.map charOf).reverse =
      scanString byteAt address left (front ++ back).length
        ((front ++ back).map charOf).reverse := by
  induction back generalizing front with
  | nil => rw [List.append_nil, List.length_nil, Nat.zero_add]
  | cons b back ih =>
    have hlt : front.length < (front ++ b :: back).length := by simp
    obtain ⟨hb, hne, hascii⟩ := h front.length hlt
    simp only [List.getElem_append_right (Nat.le_refl front.length), Nat.sub_self,
      List.getElem_cons_zero] at hb hne hascii
    have hnext := ih (front ++ [b]) (by rwa [List.append_assoc])
    have hcount : (b :: back).length + left = back.length + left + 1 := by
      rw [List.length_cons]
      omega
    rw [hcount, scanString, hb]
    simp only [if_neg hne, if_pos hascii]
    simpa [charOf] using hnext

/-- What a scan answers is told by the bytes. -/
theorem tells_scanString (h : Spells byteAt bytes) (hleft : bytes.length + left = longestString) :
    Tells byteAt address
      (scanString byteAt address left bytes.length (bytes.map charOf).reverse) := by
  induction left generalizing bytes with
  | zero => exact .unterminated h hleft
  | succ left ih =>
    have hshort : bytes.length < longestString := by omega
    rw [scanString]
    cases hb : byteAt bytes.length with
    | none => exact .invalidAddress h hshort hb
    | some b =>
      dsimp only
      split
      · rename_i hzero
        rw [List.reverse_reverse]
        exact .text h hshort (hzero ▸ hb)
      split
      · rename_i hne hascii
        have hnext := ih (h.concat hb hne hascii) (by
          rw [List.length_append, List.length_singleton]
          omega)
        simpa [charOf] using hnext
      · rename_i hascii
        exact .notAscii h hshort hb (Bool.eq_false_iff.2 hascii)

/-- A string is decoded to what the bytes tell, and to nothing else. -/
theorem scanString_eq_iff (answer : Except DecodeError String) :
    scanString byteAt address longestString 0 [] = answer ↔ Tells byteAt address answer := by
  have hpast : ∀ {bytes : List UInt8} (left : Nat), Spells byteAt bytes →
      bytes.length + left = longestString →
      scanString byteAt address longestString 0 [] =
        scanString byteAt address left bytes.length (bytes.map charOf).reverse := by
    intro bytes left h hleft
    rw [← hleft]
    exact scanString_append [] bytes h left
  constructor
  · intro h
    have hnone : Spells byteAt [] := fun i hi => absurd hi (Nat.not_lt_zero i)
    rw [← h]
    exact tells_scanString hnone (Nat.zero_add longestString)
  · intro h
    cases h with
    | unterminated spelled long => exact hpast 0 spelled long
    | @text bytes spelled short ended =>
      obtain ⟨left, hleft⟩ := Nat.exists_eq_add_of_lt short
      rw [hpast (left + 1) spelled hleft.symm, scanString, ended]
      simp
    | @notAscii bytes b spelled short met foreign =>
      obtain ⟨left, hleft⟩ := Nat.exists_eq_add_of_lt short
      have hne : b ≠ 0 := by
        rintro rfl
        cases foreign
      rw [hpast (left + 1) spelled hleft.symm, scanString, met]
      simp [hne, foreign]
    | @invalidAddress bytes spelled short missing =>
      obtain ⟨left, hleft⟩ := Nat.exists_eq_add_of_lt short
      rw [hpast (left + 1) spelled hleft.symm, scanString, missing]

end Scan

/-- A scan asks for no byte in front of its offset. -/
theorem scanString_congr {f g : Nat → Option UInt8} (address : UInt32) (left : Nat) {offset : Nat}
    (seen : List Char) (h : ∀ i, offset ≤ i → f i = g i) :
    scanString f address left offset seen = scanString g address left offset seen := by
  induction left generalizing offset seen with
  | zero => rfl
  | succ left ih =>
    rw [scanString, scanString, h offset (Nat.le_refl offset)]
    cases g offset with
    | none => rfl
    | some b =>
      dsimp only
      rw [ih _ fun i hi => h i (Nat.le_of_succ_le hi)]

end Monitor68.Decode
