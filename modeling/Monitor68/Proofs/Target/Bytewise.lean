import Monitor68.Proofs.Target.Blocks

/-!
# Blocks and their bytes

The simulator has block operations of its own beside those it would get
from its bytes.  The two ways disagree about an empty block that begins
behind the end of memory: the simulator refuses it, and byte by byte there
is nothing to refuse.

Offsets are words of 32 bits.  A block that is longer than there are
offsets meets its first bytes again, which memory allows only if it fills
the address space and the block begins at its start (`GoesRound`).
Everywhere else one way succeeds exactly if the other does, with the same
bytes and the same memory.
-/

namespace Monitor68

namespace Engine

/-- Where the byte of a block lies whose offset is counted in 32-bit
words. -/
def place (address : UInt32) (offset : Nat) : Nat := address.toNat + offset % UInt32.size

theorem place_of_lt {address : UInt32} {offset : Nat} (h : offset < UInt32.size) :
    place address offset = address.toNat + offset := by
  rw [place, Nat.mod_eq_of_lt h]

/-- An offset leads to an address exactly if its place is one. -/
theorem offsetAddress?_eq_some_iff (address : UInt32) (offset : Nat) (target : UInt32) :
    offsetAddress? address offset = some target ↔ target.toNat = place address offset := by
  unfold offsetAddress?
  change (if place address offset < _ then _ else _) = _ ↔ _
  split
  · rename_i hlt
    rw [Option.some.injEq, ← UInt32.toNat_inj]
    change (UInt32.ofNat (place address offset)).toNat = _ ↔ _
    rw [UInt32.toNat_ofNat_of_lt' hlt]
    exact eq_comm
  · rename_i hge
    simp only [reduceCtorEq, false_iff]
    intro h
    exact hge (h ▸ target.toNat_lt)

theorem offsetAddress?_eq_none_iff (address : UInt32) (offset : Nat) :
    offsetAddress? address offset = none ↔ UInt32.size ≤ place address offset := by
  rw [← Nat.not_lt]
  unfold offsetAddress?
  change (if place address offset < _ then _ else _) = _ ↔ _
  split
  · rename_i hlt
    simp [hlt]
  · rename_i hge
    simp [hge]

end Engine

namespace Simulator

open Engine

variable {s : Simulator} {address : UInt32}

/-- The places of all bytes of a block are in memory. -/
def Reaches (s : Simulator) (address : UInt32) (offset length : Nat) : Prop :=
  ∀ i < length, place address (offset + i) < s.memory.size

/-- The empty block behind the end of memory. -/
def PastEnd (s : Simulator) (address : UInt32) (length : Nat) : Prop :=
  length = 0 ∧ s.memory.size < address.toNat

/-- A block of the whole address space and more. -/
def GoesRound (s : Simulator) (address : UInt32) (length : Nat) : Prop :=
  address = 0 ∧ s.memory.size = UInt32.size ∧ UInt32.size < length

instance (s : Simulator) (address : UInt32) (length : Nat) :
    Decidable (s.PastEnd address length) := inferInstanceAs (Decidable (_ ∧ _))

instance (s : Simulator) (address : UInt32) (length : Nat) :
    Decidable (s.GoesRound address length) := inferInstanceAs (Decidable (_ ∧ _ ∧ _))

theorem reaches_zero (offset : Nat) : s.Reaches address offset 0 :=
  fun i hi => absurd hi (Nat.not_lt_zero i)

theorem reaches_succ_iff (offset length : Nat) :
    s.Reaches address offset (length + 1) ↔
      place address offset < s.memory.size ∧ s.Reaches address (offset + 1) length := by
  constructor
  · intro h
    refine ⟨h 0 (Nat.zero_lt_succ _), fun i hi => ?_⟩
    have hplace : offset + 1 + i = offset + (i + 1) := by omega
    rw [hplace]
    exact h (i + 1) (Nat.succ_lt_succ hi)
  · rintro ⟨hfirst, hrest⟩ i hi
    cases i with
    | zero => exact hfirst
    | succ i =>
      have hplace : offset + (i + 1) = offset + 1 + i := by omega
      rw [hplace]
      exact hrest i (Nat.lt_of_succ_lt_succ hi)

/-- A block that goes round finds memory at every place. -/
theorem reaches_of_goesRound {length : Nat} (h : s.GoesRound address length) :
    s.Reaches address 0 length := by
  obtain ⟨rfl, hmemory, -⟩ := h
  intro i _
  have hmod : (0 + i) % UInt32.size < UInt32.size := Nat.mod_lt _ (by decide)
  rw [place, UInt32.toNat_zero]
  omega

/-- Unless it goes round, what is reached byte by byte is the block in
memory, or nothing. -/
theorem fits_of_reaches (hsize : s.memory.size ≤ UInt32.size) {length : Nat}
    (hreaches : s.Reaches address 0 length) (hround : ¬ s.GoesRound address length) :
    length = 0 ∨ address.toNat + length ≤ s.memory.size := by
  have hwords : 0 < UInt32.size := by decide
  -- the byte to look at is the last one, or the last before offsets come round
  by_cases hlong : UInt32.size < length
  · have hlast := hreaches (UInt32.size - 1) (by omega)
    rw [Nat.zero_add, place_of_lt (by omega)] at hlast
    have hstart : address.toNat = 0 := by omega
    exact absurd ⟨UInt32.toNat_inj.1 hstart, by omega, hlong⟩ hround
  · by_cases hempty : length = 0
    · exact .inl hempty
    · have hlast := hreaches (length - 1) (by omega)
      rw [Nat.zero_add, place_of_lt (by omega)] at hlast
      exact .inr (by omega)

/-! ## Reading -/

/-- A byte can be read exactly if its place is in memory. -/
theorem readEachFrom_cons_iff (hsize : s.memory.size ≤ UInt32.size) (offset length : Nat)
    (seen bytes : List UInt8) :
    readEachFrom s.readByte address offset (length + 1) seen = .ok bytes ↔
      ∃ b, s.memory.cell? (place address offset) = some b ∧
        readEachFrom s.readByte address (offset + 1) length (b :: seen) = .ok bytes := by
  rw [readEachFrom]
  cases hoffset : offsetAddress? address offset with
  | none =>
    simp only [reduceCtorEq, false_iff]
    rintro ⟨b, hb, -⟩
    have hlt := (Memory.exists_cell?_iff _ _).1 ⟨b, hb⟩
    have hover := (offsetAddress?_eq_none_iff address offset).1 hoffset
    omega
  | some target =>
    rw [← (offsetAddress?_eq_some_iff address offset target).1 hoffset]
    dsimp only
    cases hread : s.readByte target with
    | error e =>
      simp only [reduceCtorEq, false_iff]
      rintro ⟨b, hb, -⟩
      rw [(readByte_eq_ok_iff s target b).2 hb] at hread
      cases hread
    | ok b =>
      rw [(readByte_eq_ok_iff s target b).1 hread]
      simp

/-- What is read byte by byte are the cells at the places of the bytes. -/
theorem readEachFrom_eq_ok_iff (hsize : s.memory.size ≤ UInt32.size) (offset length : Nat)
    (seen bytes : List UInt8) :
    readEachFrom s.readByte address offset length seen = .ok bytes ↔
      ∃ rest : List UInt8, bytes = seen.reverse ++ rest ∧ rest.length = length ∧
        ∀ i (h : i < rest.length),
          s.memory.cell? (place address (offset + i)) = some rest[i] := by
  induction length generalizing offset seen with
  | zero =>
    rw [readEachFrom, Except.ok.injEq]
    constructor
    · intro h
      exact ⟨[], by simp [h], rfl, fun i hi => absurd hi (Nat.not_lt_zero i)⟩
    · rintro ⟨rest, rfl, hlength, -⟩
      rw [List.eq_nil_of_length_eq_zero hlength, List.append_nil]
  | succ length ih =>
    rw [readEachFrom_cons_iff hsize]
    constructor
    · rintro ⟨b, hb, hrest⟩
      obtain ⟨rest, rfl, hlength, hcells⟩ := (ih _ _).1 hrest
      refine ⟨b :: rest, by simp, by simp [hlength], fun i hi => ?_⟩
      cases i with
      | zero => exact hb
      | succ i =>
        have hplace : offset + (i + 1) = offset + 1 + i := by omega
        rw [hplace]
        exact hcells i (Nat.lt_of_succ_lt_succ hi)
    · rintro ⟨rest, rfl, hlength, hcells⟩
      cases rest with
      | nil => cases hlength
      | cons b rest =>
        refine ⟨b, hcells 0 (Nat.zero_lt_succ _), (ih _ _).2 ⟨rest, by simp, ?_, ?_⟩⟩
        · simpa using hlength
        · intro i hi
          have hplace : offset + 1 + i = offset + (i + 1) := by omega
          rw [hplace]
          exact hcells (i + 1) (Nat.succ_lt_succ hi)

/-- A block in memory reads the same both ways. -/
theorem readEach_eq_ok_iff_of_fits (hsize : s.memory.size ≤ UInt32.size) {length : Nat}
    (hfits : address.toNat + length ≤ s.memory.size) (bytes : List UInt8) :
    readEach s.readByte address length = .ok bytes ↔
      s.readBlock address length = .ok bytes := by
  rw [readBlock_eq_ok_iff, readEach, readEachFrom_eq_ok_iff hsize]
  have hplace : ∀ i, i < length → place address (0 + i) = address.toNat + i := fun i hi => by
    rw [Nat.zero_add, place_of_lt (by omega)]
  constructor
  · rintro ⟨rest, rfl, hlength, hcells⟩
    refine ⟨hfits, hlength, fun i hi => ?_⟩
    rw [← hplace i (hlength ▸ hi)]
    exact hcells i hi
  · rintro ⟨-, hlength, hspells⟩
    refine ⟨bytes, rfl, hlength, fun i hi => ?_⟩
    rw [hplace i (hlength ▸ hi)]
    exact hspells i hi

/-- A block can be read byte by byte exactly if its bytes have places in
memory. -/
theorem exists_readEachFrom_iff (hsize : s.memory.size ≤ UInt32.size) (offset length : Nat)
    (seen : List UInt8) :
    (∃ bytes, readEachFrom s.readByte address offset length seen = .ok bytes) ↔
      s.Reaches address offset length := by
  induction length generalizing offset seen with
  | zero => exact ⟨fun _ => reaches_zero offset, fun _ => ⟨_, rfl⟩⟩
  | succ length ih =>
    simp only [readEachFrom_cons_iff hsize, reaches_succ_iff, ← Memory.exists_cell?_iff]
    constructor
    · rintro ⟨bytes, b, hb, hrest⟩
      exact ⟨⟨b, hb⟩, (ih _ _).1 ⟨bytes, hrest⟩⟩
    · rintro ⟨⟨b, hb⟩, hrest⟩
      obtain ⟨bytes, hbytes⟩ := (ih _ (b :: seen)).2 hrest
      exact ⟨bytes, b, hb, hbytes⟩

/-! ## Writing -/

/-- A byte can be written exactly if its place is in memory. -/
theorem writeEachFrom_cons_iff (hsize : s.memory.size ≤ UInt32.size) (offset : Nat) (b : UInt8)
    (data : List UInt8) (t : Simulator) :
    writeEachFrom writeByte address s offset (b :: data) = (t, .ok ()) ↔
      place address offset < s.memory.size ∧
        writeEachFrom writeByte address
          { s with memory := s.memory.setCell (place address offset) b }
          (offset + 1) data = (t, .ok ()) := by
  rw [writeEachFrom]
  cases hoffset : offsetAddress? address offset with
  | none =>
    simp only [Prod.mk.injEq, reduceCtorEq, and_false, false_iff, not_and]
    intro hlt
    have hover := (offsetAddress?_eq_none_iff address offset).1 hoffset
    omega
  | some target =>
    rw [← (offsetAddress?_eq_some_iff address offset target).1 hoffset]
    by_cases hlt : target.toNat < s.memory.size
    · simp [writeByte, hlt]
    · simp [writeByte, hlt]

/-- A block can be written byte by byte exactly if its bytes have places in
memory. -/
theorem exists_writeEachFrom_iff (hsize : s.memory.size ≤ UInt32.size) (offset : Nat)
    (data : List UInt8) :
    (∃ t, writeEachFrom writeByte address s offset data = (t, .ok ())) ↔
      s.Reaches address offset data.length := by
  induction data generalizing s offset with
  | nil => exact ⟨fun _ => reaches_zero offset, fun _ => ⟨_, rfl⟩⟩
  | cons b data ih =>
    simp only [writeEachFrom_cons_iff hsize, List.length_cons, reaches_succ_iff, exists_and_left]
    rw [ih (by simpa using hsize)]
    rfl

/-- Writing a block of memory byte by byte changes its cells. -/
theorem writeEachFrom_of_fits (hsize : s.memory.size ≤ UInt32.size) {offset : Nat}
    {data : List UInt8} (hfits : address.toNat + (offset + data.length) ≤ s.memory.size) :
    writeEachFrom writeByte address s offset data =
      ({ s with memory := s.memory.setCells (address.toNat + offset) data }, .ok ()) := by
  induction data generalizing s offset with
  | nil => rfl
  | cons b data ih =>
    rw [List.length_cons] at hfits
    have hplace : place address offset = address.toNat + offset := place_of_lt (by omega)
    refine (writeEachFrom_cons_iff hsize _ _ _ _).2 ⟨by omega, ?_⟩
    rw [hplace, ih (by simpa using hsize) (by rw [Memory.size_setCell]; omega)]
    rfl

/-- A block of memory is written the same both ways. -/
theorem writeEach_eq_of_fits (hsize : s.memory.size ≤ UInt32.size) {data : List UInt8}
    (hfits : address.toNat + data.length ≤ s.memory.size) :
    writeEach writeByte s address data = s.writeBlock address data := by
  rw [writeEach, writeEachFrom_of_fits hsize (by omega), Nat.add_zero, writeBlock_of_fits hfits]

/-! ## Both ways -/

/-- For a block that is not the empty one behind the end of memory, and
that does not go round the address space, the block operations of the
simulator succeed exactly if those by bytes do, with the same bytes and the
same memory.  The empty block behind the end is refused by the one and
accepted, to no effect, by the other. -/
theorem blocks_agree_bytewise (s : Simulator) (hsize : s.memory.size ≤ UInt32.size)
    (address : UInt32) :
    (∀ length, ¬ s.GoesRound address length →
      if s.PastEnd address length then
        s.readBlock address length = .error (.invalidAddress address) ∧
          readEach s.readByte address length = .ok []
      else
        ∀ bytes, s.readBlock address length = .ok bytes ↔
          readEach s.readByte address length = .ok bytes) ∧
    (∀ data : List UInt8, ¬ s.GoesRound address data.length →
      if s.PastEnd address data.length then
        s.writeBlock address data = (s, .error (.invalidAddress address)) ∧
          writeEach writeByte s address data = (s, .ok ())
      else
        ∀ t, s.writeBlock address data = (t, .ok ()) ↔
          writeEach writeByte s address data = (t, .ok ())) := by
  constructor
  · intro length hround
    split
    · rename_i hpast
      obtain ⟨rfl, hbehind⟩ := hpast
      exact ⟨readBlock_of_not_fits (by omega), rfl⟩
    · rename_i hpast
      intro bytes
      by_cases hfits : address.toNat + length ≤ s.memory.size
      · exact (readEach_eq_ok_iff_of_fits hsize hfits bytes).symm
      · rw [readBlock_of_not_fits hfits]
        simp only [reduceCtorEq, false_iff]
        intro hread
        obtain hempty | hin := fits_of_reaches hsize
          ((exists_readEachFrom_iff hsize _ _ _).1 ⟨bytes, hread⟩) hround
        · exact hpast ⟨hempty, by omega⟩
        · exact hfits hin
  · intro data hround
    split
    · rename_i hpast
      obtain ⟨hempty, hbehind⟩ := hpast
      rw [List.eq_nil_of_length_eq_zero hempty]
      exact ⟨writeBlock_of_not_fits (by rw [List.length_nil]; omega), rfl⟩
    · rename_i hpast
      intro t
      by_cases hfits : address.toNat + data.length ≤ s.memory.size
      · rw [writeEach_eq_of_fits hsize hfits]
      · rw [writeBlock_of_not_fits hfits]
        simp only [Prod.mk.injEq, reduceCtorEq, and_false, false_iff]
        intro hwrite
        obtain hempty | hin := fits_of_reaches hsize
          ((exists_writeEachFrom_iff hsize _ _).1 ⟨t, hwrite⟩) hround
        · exact hpast ⟨hempty, by omega⟩
        · exact hfits hin

/-- The agreement at the last bytes of a small memory, and at the empty
block behind them. -/
theorem blocks_agree_bytewise_at_end :
    (Simulator.blank 16).memory.size ≤ UInt32.size ∧
      (∀ bytes, (Simulator.blank 16).readBlock 12 4 = .ok bytes ↔
        readEach (Simulator.blank 16).readByte 12 4 = .ok bytes) ∧
      (Simulator.blank 16).writeBlock 20 [] =
        (Simulator.blank 16, .error (.invalidAddress 20)) := by
  have hsize : (Simulator.blank 16).memory.size ≤ UInt32.size := by decide
  refine ⟨hsize, ?_, ?_⟩
  · have h := (blocks_agree_bytewise (Simulator.blank 16) hsize 12).1 4 (by decide)
    rwa [if_neg (by decide)] at h
  · have h := (blocks_agree_bytewise (Simulator.blank 16) hsize 20).2 [] (by decide)
    rw [if_pos (by decide)] at h
    exact h.1

/-- An empty block behind the end of memory cannot be read or written as a
block, but byte by byte it can, and so it is with a block of one byte more
than there are offsets, in a memory of all addresses. -/
theorem blocks_differ_from_bytes :
    (¬ ((Simulator.blank 16).readBlock 17 0 = .ok [] ↔
        readEach (Simulator.blank 16).readByte 17 0 = .ok []) ∧
      ¬ ((Simulator.blank 16).writeBlock 17 [] = (Simulator.blank 16, .ok ()) ↔
        writeEach writeByte (Simulator.blank 16) 17 [] = (Simulator.blank 16, .ok ()))) ∧
    (¬ ((∃ bytes, (Simulator.blank UInt32.size).readBlock 0 (UInt32.size + 1) = .ok bytes) ↔
        ∃ bytes, readEach (Simulator.blank UInt32.size).readByte 0 (UInt32.size + 1) =
          .ok bytes) ∧
      ¬ ((∃ t, (Simulator.blank UInt32.size).writeBlock 0 (.replicate (UInt32.size + 1) 0) =
          (t, .ok ())) ↔
        ∃ t, writeEach writeByte (Simulator.blank UInt32.size) 0
          (.replicate (UInt32.size + 1) 0) = (t, .ok ()))) := by
  constructor
  · have hbehind : ¬ (17 : UInt32).toNat + 0 ≤ (Simulator.blank 16).memory.size := by decide
    rw [readBlock_of_not_fits hbehind, writeBlock_of_not_fits hbehind]
    constructor
    · intro h
      cases h.2 rfl
    · intro h
      have hok := congrArg Prod.snd (h.2 rfl)
      cases hok
  · have hsize : (Simulator.blank UInt32.size).memory.size ≤ UInt32.size := Nat.le_refl _
    have hover : ¬ (0 : UInt32).toNat + (UInt32.size + 1) ≤
        (Simulator.blank UInt32.size).memory.size := by decide
    have hreaches : (Simulator.blank UInt32.size).Reaches 0 0 (UInt32.size + 1) :=
      reaches_of_goesRound ⟨rfl, rfl, Nat.lt_succ_self _⟩
    constructor
    · intro h
      obtain ⟨bytes, hbytes⟩ := h.2 ((exists_readEachFrom_iff hsize _ _ _).2 hreaches)
      rw [readBlock_of_not_fits hover] at hbytes
      cases hbytes
    · intro h
      have hlength := List.length_replicate (n := UInt32.size + 1) (a := (0 : UInt8))
      obtain ⟨t, ht⟩ := h.2 ((exists_writeEachFrom_iff hsize _ _).2 (by rwa [hlength]))
      rw [writeBlock_of_not_fits (by rwa [hlength])] at ht
      cases congrArg Prod.snd ht

end Simulator

end Monitor68
