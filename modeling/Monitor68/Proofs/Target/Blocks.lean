import Monitor68.Target.Simulator

/-!
# What the simulator reads

A byte can be read exactly if its address is in memory, and a block exactly
if all of it is; an empty block counts as in memory up to the address
behind the last.  What is read is what memory spells, cell by cell.
-/

namespace Monitor68

namespace Memory

/-- The cells of a memory from an address on hold the given bytes. -/
def Spells (m : Memory) (start : Nat) (bytes : List UInt8) : Prop :=
  ∀ i (h : i < bytes.length), m.cell? (start + i) = some bytes[i]

/-- Bytes behind others begin where those end. -/
theorem spells_append (m : Memory) (start : Nat) (front back : List UInt8) :
    m.Spells start (front ++ back) ↔
      m.Spells start front ∧ m.Spells (start + front.length) back := by
  constructor
  · intro h
    constructor
    · intro i hi
      rw [h i (by rw [List.length_append]; omega), List.getElem_append_left hi]
    · intro i hi
      rw [Nat.add_assoc, h (front.length + i) (by rw [List.length_append]; omega),
        List.getElem_append_right (Nat.le_add_right _ _)]
      simp only [Nat.add_sub_cancel_left]
  · intro h i hi
    obtain ⟨hfront, hback⟩ := h
    by_cases hlt : i < front.length
    · rw [hfront i hlt, List.getElem_append_left hlt]
    · have hi' : i - front.length < back.length := by
        rw [List.length_append] at hi
        omega
      have hplace : start + i = start + front.length + (i - front.length) := by omega
      rw [hplace, hback _ hi', List.getElem_append_right (Nat.le_of_not_lt hlt)]

/-- Memory spells what has been written to it. -/
theorem spells_setCells (m : Memory) {start : Nat} {data : List UInt8}
    (h : start + data.length ≤ m.size) : (m.setCells start data).Spells start data := by
  intro i hi
  rw [cell?_setCells m start data h, if_pos (Nat.le_add_right start i), Nat.add_sub_cancel_left,
    dif_pos hi]

/-- An address is in memory exactly if it has a cell. -/
theorem exists_cell?_iff (m : Memory) (address : Nat) :
    (∃ b, m.cell? address = some b) ↔ address < m.size := by
  unfold cell?
  split
  · rename_i h
    exact ⟨fun _ => h, fun _ => ⟨_, rfl⟩⟩
  · rename_i h
    constructor
    · intro hcell
      obtain ⟨b, hb⟩ := hcell
      cases hb
    · exact fun hlt => absurd hlt h

/-- A block is there exactly if it ends in memory, and it is what memory
spells. -/
theorem block?_eq_some_iff (m : Memory) (start length : Nat) (bytes : List UInt8) :
    m.block? start length = some bytes ↔
      start + length ≤ m.size ∧ bytes.length = length ∧ m.Spells start bytes := by
  have hcell : ∀ i, start + i < m.size →
      m.cell? (start + i) = some (m.written.getD (start + i) 0) := fun i hi => if_pos hi
  unfold block? holds
  by_cases hle : start + length ≤ m.size
  · simp only [hle, decide_true, if_true, Option.some.injEq, true_and]
    constructor
    · intro h
      subst h
      refine ⟨by simp, fun i hi => ?_⟩
      rw [List.length_map, List.length_range'] at hi
      rw [hcell i (by omega)]
      simp
    · intro h
      obtain ⟨hlength, hspells⟩ := h
      refine List.ext_getElem (by simp [hlength]) fun i hi hi' => ?_
      have hbyte := hspells i hi'
      rw [hcell i (by omega)] at hbyte
      simpa using hbyte
  · simp [hle]

end Memory

namespace Simulator

variable (s : Simulator) (address : UInt32)

theorem readByte_eq_ok_iff (b : UInt8) :
    s.readByte address = .ok b ↔ s.memory.cell? address.toNat = some b := by
  unfold readByte
  split
  · rename_i h
    rw [h, Except.ok.injEq, Option.some.injEq]
  · rename_i h
    simp [h]

theorem readBlock_eq_ok_iff (length : Nat) (bytes : List UInt8) :
    s.readBlock address length = .ok bytes ↔
      address.toNat + length ≤ s.memory.size ∧ bytes.length = length ∧
        s.memory.Spells address.toNat bytes := by
  rw [← Memory.block?_eq_some_iff]
  unfold readBlock
  split
  · rename_i h
    rw [h, Except.ok.injEq, Option.some.injEq]
  · rename_i h
    simp [h]

/-- A block that ends in memory can be read. -/
theorem exists_readBlock {length : Nat} (h : address.toNat + length ≤ s.memory.size) :
    ∃ bytes, s.readBlock address length = .ok bytes := by
  have hholds : s.memory.holds address.toNat length = true := decide_eq_true h
  unfold readBlock Memory.block?
  rw [if_pos hholds]
  exact ⟨_, rfl⟩

variable {s : Simulator} {address : UInt32}

/-- A block that ends in memory is written. -/
theorem writeBlock_of_fits {data : List UInt8}
    (h : address.toNat + data.length ≤ s.memory.size) :
    s.writeBlock address data =
      ({ s with memory := s.memory.setCells address.toNat data }, .ok ()) := by
  have hholds : s.memory.holds address.toNat data.length = true := decide_eq_true h
  rw [writeBlock, Memory.setBlock?, if_pos hholds]

/-- A block that does not end in memory is not written. -/
theorem writeBlock_of_not_fits {data : List UInt8}
    (hover : ¬ address.toNat + data.length ≤ s.memory.size) :
    s.writeBlock address data = (s, .error (.invalidAddress address)) := by
  have hholds : ¬ s.memory.holds address.toNat data.length = true := by
    simpa [Memory.holds] using hover
  rw [writeBlock, Memory.setBlock?, if_neg hholds]

/-- A block that does not end in memory is not read. -/
theorem readBlock_of_not_fits {length : Nat}
    (hover : ¬ address.toNat + length ≤ s.memory.size) :
    s.readBlock address length = .error (.invalidAddress address) := by
  have hholds : ¬ s.memory.holds address.toNat length = true := by
    simpa [Memory.holds] using hover
  rw [readBlock, Memory.block?, if_neg hholds]

end Simulator

end Monitor68
