import Mathlib.Logic.Basic
import Monitor68.Proofs.Inspect.Strings
import Monitor68.Proofs.Target.Blocks

/-!
# What ends a string in memory

A string in the memory of a simulator is decided by the first offset whose
byte is missing, zero, or no character of ASCII.  A byte is missing where
memory ends and where addresses end, whichever comes first.  The offsets in
front of the deciding one give the text, those behind it have no influence,
and a scan that meets no deciding offset gives up.
-/

namespace Monitor68

/-- The byte at an offset above an address, if there is such an address and
memory reaches up to it. -/
def Simulator.cellAbove (s : Simulator) (address : UInt32) (offset : Nat) : Option UInt8 :=
  if address.toNat + offset < UInt32.size then s.memory.cell? (address.toNat + offset) else none

namespace Decode

/-- A byte is missing, zero, or above the characters of ASCII. -/
def Decides (byteAt : Nat → Option UInt8) (offset : Nat) : Prop :=
  ∀ b, byteAt offset = some b → b = 0 ∨ 0x7F < b

section Deciding

variable {byteAt : Nat → Option UInt8} {bytes : List UInt8} {k : Nat}

theorem isAscii_eq_false_iff (b : UInt8) : isAscii b = false ↔ 0x7F < b := by
  rw [isAscii, decide_eq_false_iff_not, UInt8.not_lt, UInt8.le_iff_toNat_le, UInt8.lt_iff_toNat_lt]
  rfl

theorem not_decides_iff (offset : Nat) :
    ¬ Decides byteAt offset ↔ ∃ b, byteAt offset = some b ∧ b ≠ 0 ∧ isAscii b = true := by
  simp only [Decides, not_forall, not_or, ← isAscii_eq_false_iff, Bool.not_eq_false, exists_prop,
    ne_eq]

theorem Spells.not_decides (h : Spells byteAt bytes) : ∀ i < bytes.length, ¬ Decides byteAt i :=
  fun i hi => (not_decides_iff i).2 ⟨_, h i hi⟩

/-- In front of a deciding offset there are characters of a string. -/
theorem exists_spells_of_not_decides (h : ∀ i < k, ¬ Decides byteAt i) :
    ∃ bytes : List UInt8, bytes.length = k ∧ Spells byteAt bytes := by
  induction k with
  | zero => exact ⟨[], rfl, fun i hi => absurd hi (Nat.not_lt_zero i)⟩
  | succ k ih =>
    obtain ⟨bytes, rfl, hspells⟩ := ih fun i hi => h i (Nat.lt_succ_of_lt hi)
    obtain ⟨b, hb, hne, hascii⟩ := (not_decides_iff _).1 (h _ (Nat.lt_succ_self _))
    exact ⟨bytes ++ [b], by simp, hspells.concat hb hne hascii⟩

/-- What is told by the bytes up to the deciding one is told by them whatever
comes behind. -/
theorem Tells.congr {f g : Nat → Option UInt8} {address : UInt32}
    {answer : Except DecodeError String} (h : Tells f address answer)
    (hsame : ∀ i < longestString, (∀ j < i, ¬ Decides f j) → g i = f i) :
    Tells g address answer := by
  -- No offset in front of the characters spelled decides, so both functions have them.
  have hspells : ∀ {bytes}, Spells f bytes → bytes.length ≤ longestString → Spells g bytes := by
    intro bytes hspells hshort i hi
    rw [hsame i (by omega) fun j hj => hspells.not_decides j (by omega)]
    exact hspells i hi
  have hnext : ∀ {bytes}, Spells f bytes → bytes.length < longestString →
      g bytes.length = f bytes.length :=
    fun hspells hshort => hsame _ hshort hspells.not_decides
  cases h with
  | text spelled short ended =>
    exact .text (hspells spelled (Nat.le_of_lt short)) short ((hnext spelled short).trans ended)
  | notAscii spelled short met foreign =>
    exact .notAscii (hspells spelled (Nat.le_of_lt short)) short ((hnext spelled short).trans met)
      foreign
  | invalidAddress spelled short missing =>
    exact .invalidAddress (hspells spelled (Nat.le_of_lt short)) short
      ((hnext spelled short).trans missing)
  | unterminated spelled long => exact .unterminated (hspells spelled (Nat.le_of_eq long)) long

end Deciding

theorem byteAt_eq_cellAbove (s : Simulator) (address : UInt32) :
    byteAt s address = s.cellAbove address := by
  funext offset
  unfold byteAt Simulator.cellAbove
  dsimp only
  split
  · rename_i hlt
    have htarget : (UInt32.ofNat (address.toNat + offset)).toNat = address.toNat + offset :=
      UInt32.toNat_ofNat_of_lt' hlt
    show (s.readByte _).toOption = _
    rw [Simulator.readByte, htarget]
    cases s.memory.cell? (address.toNat + offset) <;> rfl
  · rfl

theorem value_string_eq_iff {s : Simulator} {address : UInt32}
    {answer : Except DecodeError String} :
    value s address .string = answer ↔ Tells (s.cellAbove address) address answer := by
  rw [← byteAt_eq_cellAbove]
  exact scanString_eq_iff answer

/-- The code of a character of ASCII is its byte. -/
theorem toNat_charOf {b : UInt8} (h : isAscii b = true) : (charOf b).toNat = b.toNat := by
  have hlt : b.toNat < 0x80 := UInt8.lt_iff_toNat_lt.1 (of_decide_eq_true h)
  have hvalid : b.toNat.isValidChar := .inl (by omega)
  rw [charOf, Char.ofNat, dif_pos hvalid]
  rfl

/-- The first offset below 4096 that decides the string does so by the byte it
has: with none the address at which the string begins is complained about,
with zero the characters in front are the text, and any other byte is
complained about itself.  If there is no such offset the string is not
terminated.  Offsets behind the first deciding one have no influence. -/
theorem string_is_decided (s : Simulator) (address : UInt32) :
    (∀ k < 4096, Decides (s.cellAbove address) k →
      (∀ i < k, ¬ Decides (s.cellAbove address) i) →
      (s.cellAbove address k = none →
        value s address .string = .error (.invalidAddress address)) ∧
      (s.cellAbove address k = some 0 →
        ∃ text, value s address .string = .ok text ∧ text.length = k ∧
          ∀ i < k, ∃ b, s.cellAbove address i = some b ∧ 0 < b ∧ b ≤ 0x7F ∧
            text.toList[i]?.map Char.toNat = some b.toNat) ∧
      ∀ b, s.cellAbove address k = some b → 0x7F < b →
        value s address .string = .error (.notAscii b)) ∧
    ((∀ k < 4096, ¬ Decides (s.cellAbove address) k) →
      value s address .string = .error .unterminated) ∧
    ∀ s' : Simulator,
      (∀ i < 4096, (∀ j < i, ¬ Decides (s.cellAbove address) j) →
        s'.cellAbove address i = s.cellAbove address i) →
      value s' address .string = value s address .string := by
  refine ⟨?_, ?_, ?_⟩
  · intro k hk _ hfirst
    obtain ⟨bytes, rfl, hspells⟩ := exists_spells_of_not_decides hfirst
    refine ⟨fun hnone => ?_, fun hzero => ?_, fun b hb hforeign => ?_⟩
    · exact value_string_eq_iff.2 (.invalidAddress hspells hk hnone)
    · refine ⟨_, value_string_eq_iff.2 (.text hspells hk hzero), by simp, fun i hi => ?_⟩
      obtain ⟨hb, hne, hascii⟩ := hspells i hi
      refine ⟨bytes[i], hb, ?_, ?_, ?_⟩
      · exact UInt8.pos_iff_ne_zero.2 hne
      · rw [← UInt8.not_lt, ← isAscii_eq_false_iff, hascii]
        exact nofun
      · rw [String.toList_ofList, List.getElem?_map, List.getElem?_eq_getElem hi, Option.map_some,
          Option.map_some, toNat_charOf hascii]
    · exact value_string_eq_iff.2 (.notAscii hspells hk hb ((isAscii_eq_false_iff b).2 hforeign))
  · intro hnone
    obtain ⟨bytes, hlength, hspells⟩ := exists_spells_of_not_decides hnone
    exact value_string_eq_iff.2 (.unterminated hspells hlength)
  · intro s' hsame
    exact value_string_eq_iff.2 ((value_string_eq_iff.1 rfl).congr hsame)

/-- A character, a zero byte, and a last byte that is no character. -/
def abrupt : Simulator := { memory := (Memory.blank 3).setCells 0 [0x41, 0x00, 0xC8] }

theorem abrupt_is_decided :
    (∃ text, value abrupt 0 .string = .ok text ∧ text.length = 1) ∧
    value abrupt 2 .string = .error (.notAscii 0xC8) ∧
    value abrupt 3 .string = .error (.invalidAddress 3) := by
  have hbyte : abrupt.cellAbove 0 0 = some 0x41 := by decide +kernel
  have hzero : abrupt.cellAbove 0 1 = some 0 := by decide +kernel
  have hforeign : abrupt.cellAbove 2 0 = some 0xC8 := by decide +kernel
  have hmissing : abrupt.cellAbove 3 0 = none := by decide +kernel
  have hfirst : ∀ byteAt, ∀ i < 0, ¬ Decides byteAt i :=
    fun _ i hi => absurd hi (Nat.not_lt_zero i)
  have hpast : ∀ i < 1, ¬ Decides (abrupt.cellAbove 0) i := by
    intro i hi
    obtain rfl := Nat.lt_one_iff.1 hi
    exact (not_decides_iff 0).2 ⟨0x41, hbyte, by decide, by decide⟩
  refine ⟨?_, ?_, ?_⟩
  · obtain ⟨-, htext, -⟩ := (string_is_decided abrupt 0).1 1 (by decide)
      (fun b hb => .inl (Option.some.inj (hb.symm.trans hzero))) hpast
    obtain ⟨text, hvalue, hlength, -⟩ := htext hzero
    exact ⟨text, hvalue, hlength⟩
  · exact ((string_is_decided abrupt 2).1 0 (by decide)
      (fun b hb => .inr (Option.some.inj (hb.symm.trans hforeign) ▸ by decide)) (hfirst _)).2.2
      0xC8 hforeign (by decide)
  · exact ((string_is_decided abrupt 3).1 0 (by decide)
      (fun b hb => nomatch hb.symm.trans hmissing) (hfirst _)).1 hmissing

end Decode

end Monitor68
