import Std.Data.ExtTreeMap

/-!
# Target memory

Memory is a run of byte cells from address zero up to a size.  All cells
begin as zero, and a map keeps the cells that were ever written, so a
memory of the full address space costs no more than its contents.

`cell?` is the view that everything else is said through: it answers for
the addresses below the size and for no other.
-/

namespace Monitor68

structure Memory where
  size : Nat
  /-- The cells that were written; all others are zero. -/
  written : Std.ExtTreeMap Nat UInt8 := ∅

namespace Memory

def blank (size : Nat) : Memory := { size }

/-- The byte at an address, if the address is in memory. -/
def cell? (m : Memory) (address : Nat) : Option UInt8 :=
  if address < m.size then some (m.written.getD address 0) else none

/-- The memory with one cell changed.  The address must be in memory; the
callers see to it. -/
def setCell (m : Memory) (address : Nat) (value : UInt8) : Memory :=
  { m with written := m.written.insert address value }

/-- The memory with the cells from `start` on changed to `data`. -/
def setCells (m : Memory) : Nat → List UInt8 → Memory
  | _, [] => m
  | start, b :: bs => (m.setCell start b).setCells (start + 1) bs

/-- Whether all of a block lies in memory.  An empty block does if it
begins no later than at the end. -/
def holds (m : Memory) (start length : Nat) : Bool := start + length ≤ m.size

/-- The bytes of a block, if all of it lies in memory. -/
def block? (m : Memory) (start length : Nat) : Option (List UInt8) :=
  if m.holds start length then
    some ((List.range' start length).map fun address => m.written.getD address 0)
  else none

/-- The memory with a block replaced, if all of it lies in memory. -/
def setBlock? (m : Memory) (start : Nat) (data : List UInt8) : Option Memory :=
  if m.holds start data.length then some (m.setCells start data) else none

@[simp] theorem size_setCell (m : Memory) (address : Nat) (value : UInt8) :
    (m.setCell address value).size = m.size := rfl

@[simp] theorem size_setCells (m : Memory) (start : Nat) (data : List UInt8) :
    (m.setCells start data).size = m.size := by
  induction data generalizing m start with
  | nil => rfl
  | cons b bs ih => rw [setCells, ih, size_setCell]

/-! ## The view after a change -/

/-- A blank memory reads zero at each of its addresses. -/
theorem cell?_blank (size address : Nat) :
    (blank size).cell? address = if address < size then some 0 else none := by
  simp [blank, cell?]

/-- Changing a cell of a memory changes the view at its address only. -/
theorem cell?_setCell (m : Memory) {start : Nat} (h : start < m.size) (value : UInt8)
    (address : Nat) :
    (m.setCell start value).cell? address =
      if address = start then some value else m.cell? address := by
  simp only [cell?, setCell, Std.ExtTreeMap.getD_insert]
  by_cases hs : address = start
  · subst hs
    simp [h]
  · have hne : compare start address ≠ .eq := by
      intro hc
      exact hs (Std.LawfulEqOrd.eq_of_compare hc).symm
    simp [hs, hne]

/-- The view of a memory after a block of it was changed: the bytes of the
block within, and what was there outside. -/
theorem cell?_setCells (m : Memory) (start : Nat) (data : List UInt8)
    (h : start + data.length ≤ m.size) (address : Nat) :
    (m.setCells start data).cell? address =
      if start ≤ address then
        if h : address - start < data.length then some data[address - start]
        else m.cell? address
      else m.cell? address := by
  induction data generalizing m start with
  | nil => simp [setCells]
  | cons b bs ih =>
    have hlt : start < m.size := by
      simp only [List.length_cons] at h
      omega
    have hrest : start + 1 + bs.length ≤ (m.setCell start b).size := by
      rw [size_setCell]
      simp only [List.length_cons] at h
      omega
    rw [setCells, ih _ _ hrest, cell?_setCell m hlt]
    by_cases h0 : address = start
    · subst h0
      have hne : ¬ address + 1 ≤ address := by omega
      simp [hne]
    · by_cases h1 : start ≤ address
      · have h2 : start + 1 ≤ address := by omega
        obtain ⟨k, hk⟩ : ∃ k, address - start = k + 1 := ⟨address - start - 1, by omega⟩
        have hk' : address - (start + 1) = k := by omega
        simp [h0, h1, h2, hk, hk']
      · have h2 : ¬ start + 1 ≤ address := by omega
        simp [h0, h1, h2]

end Memory

end Monitor68
