import Mathlib.Order.Bounds.Basic
import Monitor68.Inspect.Dump
import Monitor68.Proofs.Target.Blocks

/-!
# The window of a dump

A dump takes one row after the other until it has as many as were asked for,
or until a row has no address or cannot be read.  `IsWindow` says so without
the loop, for any engine: each row is the one at its place, and the next one
is missing if there are fewer than asked for.

The simulator reads a row exactly if all of it is in memory.  The places of
the rows ascend, so the bounds of one row decide about it and all before it
(`lt_length_around_iff`), and the number of rows is the greatest that these
bounds allow (`window_exact`).

The rows are counted from the first one and not from the centre.  So the row
of the centre may reach over the end of memory although the centre does not,
and then it is missing (`center_shown_iff`).
-/

namespace Monitor68

/-- Whether a byte of a row has this address. -/
def DumpRow.Covers (row : DumpRow) (address : UInt32) : Prop :=
  row.address.toNat ≤ address.toNat ∧ address.toNat < row.address.toNat + DumpRow.width

instance (row : DumpRow) (address : UInt32) : Decidable (row.Covers address) :=
  inferInstanceAs (Decidable (_ ∧ _))

namespace Dump

/-- Where a row lies, counted from the first one. -/
def rowPlace (first i : Nat) : Nat := first + DumpRow.width * i

theorem rowPlace_succ (first i : Nat) :
    rowPlace first (i + 1) = rowPlace (first + DumpRow.width) i := by
  show first + 4 * (i + 1) = first + 4 + 4 * i
  omega

section Rows

variable {ε : Type} [Engine ε] {e : ε} {sp : UInt32}

/-! ## One row -/

/-- The row at a place, if the place is an address and the row can be read. -/
def rowAt? (e : ε) (sp : UInt32) (place : Nat) : Option DumpRow :=
  if place < UInt32.size then
    (Engine.readBlock e (UInt32.ofNat place) DumpRow.width).toOption.map fun bytes =>
      { address := UInt32.ofNat place, bytes, marked := isMarked (UInt32.ofNat place) sp }
  else none

theorem rowAt?_eq_some_iff (place : Nat) (row : DumpRow) :
    rowAt? e sp place = some row ↔
      row.address.toNat = place ∧ Engine.readBlock e row.address DumpRow.width = .ok row.bytes ∧
        row.marked = isMarked row.address sp := by
  unfold rowAt?
  split
  · rename_i hplace
    have haddress : (UInt32.ofNat place).toNat = place := UInt32.toNat_ofNat_of_lt' hplace
    constructor
    · intro h
      cases hread : Engine.readBlock e (UInt32.ofNat place) DumpRow.width with
      | error error => simp [hread, Except.toOption] at h
      | ok bytes =>
        rw [hread] at h
        cases h
        exact ⟨haddress, hread, rfl⟩
    · rintro ⟨hrow, hread, hmarked⟩
      have hword : UInt32.ofNat place = row.address := by
        rw [← UInt32.toNat_inj, haddress, hrow]
      simp only [hword, hread, ← hmarked]
      rfl
  · rename_i hplace
    have hrow := row.address.toNat_lt
    simp only [reduceCtorEq, false_iff]
    rintro ⟨rfl, -, -⟩
    exact hplace hrow

/-! ## The loop -/

/-- The rows from a place on: each is the one at its place, and where there
are fewer than asked for, the next one is missing. -/
structure IsWindow (e : ε) (sp : UInt32) (first rows : Nat) (window : List DumpRow) : Prop where
  length_le : window.length ≤ rows
  row_at : ∀ i (h : i < window.length), rowAt? e sp (rowPlace first i) = some window[i]
  ends : window.length < rows → rowAt? e sp (rowPlace first window.length) = none

theorem isWindow_zero (first : Nat) : IsWindow e sp first 0 [] where
  length_le := Nat.le_refl 0
  row_at := fun i h => absurd h (Nat.not_lt_zero i)
  ends := fun h => absurd h (Nat.lt_irrefl 0)

theorem isWindow_of_missing {first : Nat} (h : rowAt? e sp first = none) (rows : Nat) :
    IsWindow e sp first rows [] where
  length_le := Nat.zero_le rows
  row_at := fun i h => absurd h (Nat.not_lt_zero i)
  ends := fun _ => h

theorem IsWindow.cons {first rows : Nat} {row : DumpRow} {rest : List DumpRow}
    (hrow : rowAt? e sp first = some row)
    (hrest : IsWindow e sp (first + DumpRow.width) rows rest) :
    IsWindow e sp first (rows + 1) (row :: rest) where
  length_le := Nat.succ_le_succ hrest.length_le
  row_at := by
    intro i hi
    cases i with
    | zero => exact hrow
    | succ i =>
      rw [rowPlace_succ]
      exact hrest.row_at i (Nat.lt_of_succ_lt_succ hi)
  ends := by
    intro hshort
    rw [List.length_cons, rowPlace_succ]
    exact hrest.ends (Nat.lt_of_succ_lt_succ hshort)

/-- One turn of the loop: the row at the place is put in front of those seen,
or it is missing and they are all. -/
theorem rowsFrom_succ (left place : Nat) (seen : List DumpRow) :
    rowsFrom e sp (left + 1) place seen =
      match rowAt? e sp place with
      | some row => rowsFrom e sp left (place + DumpRow.width) (row :: seen)
      | none => seen.reverse := by
  rw [rowsFrom, rowAt?]
  split
  · dsimp only
    cases Engine.readBlock e (UInt32.ofNat place) DumpRow.width <;> rfl
  · rfl

variable (e sp)

/-- The loop puts a window behind the rows that it has seen. -/
theorem exists_window (left place : Nat) (seen : List DumpRow) :
    ∃ window, rowsFrom e sp left place seen = seen.reverse ++ window ∧
      IsWindow e sp place left window := by
  induction left generalizing place seen with
  | zero => exact ⟨[], (List.append_nil _).symm, isWindow_zero place⟩
  | succ left ih =>
    rw [rowsFrom_succ]
    cases hrow : rowAt? e sp place with
    | none => exact ⟨[], (List.append_nil _).symm, isWindow_of_missing hrow _⟩
    | some row =>
      obtain ⟨rest, hrest, hwindow⟩ := ih (place + DumpRow.width) (row :: seen)
      refine ⟨row :: rest, ?_, hwindow.cons hrow⟩
      dsimp only
      rw [hrest, List.reverse_cons, List.append_assoc, List.singleton_append]

theorem isWindow_around (center : UInt32) (rows : Nat) :
    IsWindow e sp (start center rows) rows (around e center rows sp) := by
  obtain ⟨window, hrows, hwindow⟩ := exists_window e sp rows (start center rows) []
  rw [around, hrows]
  exact hwindow

/-- The rows of a dump lie one behind the other. -/
theorem address_around (center : UInt32) (rows i : Nat)
    (h : i < (around e center rows sp).length) :
    (around e center rows sp)[i].address.toNat = rowPlace (start center rows) i :=
  ((rowAt?_eq_some_iff _ _).1 ((isWindow_around e sp center rows).row_at i h)).1

/-- A row of a dump covers an address exactly if the address is counted to it
from the first row on. -/
theorem covers_around_iff (center : UInt32) (rows i : Nat)
    (h : i < (around e center rows sp).length) (address : UInt32) :
    (around e center rows sp)[i].Covers address ↔
      start center rows ≤ address.toNat ∧ i = (address.toNat - start center rows) / 4 := by
  rw [DumpRow.Covers, address_around]
  show start center rows + 4 * i ≤ address.toNat ∧
    address.toNat < start center rows + 4 * i + 4 ↔ _
  omega

end Rows

/-! ## The window on the memory of a simulator -/

section Memory

variable (s : Simulator) (sp center : UInt32) (rows : Nat)

/-- A row can be had exactly if its place is an address and all of it is in
memory. -/
theorem exists_rowAt?_iff (place : Nat) :
    (∃ row, rowAt? s sp place = some row) ↔
      place < UInt32.size ∧ place + 4 ≤ s.memory.size := by
  simp only [rowAt?_eq_some_iff]
  constructor
  · rintro ⟨row, rfl, hread, -⟩
    exact ⟨row.address.toNat_lt, ((s.readBlock_eq_ok_iff _ _ _).1 hread).1⟩
  · rintro ⟨hplace, hfits⟩
    have haddress : (UInt32.ofNat place).toNat = place := UInt32.toNat_ofNat_of_lt' hplace
    rw [← haddress] at hfits
    obtain ⟨bytes, hbytes⟩ := s.exists_readBlock (UInt32.ofNat place) hfits
    exact ⟨⟨UInt32.ofNat place, bytes, isMarked (UInt32.ofNat place) sp⟩, haddress, hbytes, rfl⟩

/-- A dump has a row of some number exactly if so many were asked for and this
row is within its bounds.  The rows before it are within them too, since they
lie below it. -/
theorem lt_length_around_iff (i : Nat) :
    i < (around s center rows sp).length ↔
      i < rows ∧ start center rows + 4 * i < UInt32.size ∧
        start center rows + 4 * i + 4 ≤ s.memory.size := by
  have hwindow := isWindow_around s sp center rows
  have hbounds := fun n => exists_rowAt?_iff s sp (rowPlace (start center rows) n)
  constructor
  · intro hi
    have hle := hwindow.length_le
    exact ⟨by omega, (hbounds i).1 ⟨_, hwindow.row_at i hi⟩⟩
  · rintro ⟨hi, hplace, hend⟩
    apply Nat.lt_of_not_le
    intro hover
    have hmissing := hwindow.ends (by omega)
    generalize (around s center rows sp).length = k at hover hmissing
    have hrow : start center rows + 4 * k < UInt32.size ∧
        start center rows + 4 * k + 4 ≤ s.memory.size := by
      omega
    obtain ⟨row, hrow⟩ := (hbounds k).2 hrow
    rw [hmissing] at hrow
    cases hrow

/-- A row of a dump has four bytes, and they are those in memory. -/
theorem spells_around {i : Nat} (h : i < (around s center rows sp).length) :
    (around s center rows sp)[i].bytes.length = 4 ∧
      s.memory.Spells (start center rows + 4 * i) (around s center rows sp)[i].bytes := by
  have hrow := (isWindow_around s sp center rows).row_at i h
  obtain ⟨haddress, hread, -⟩ := (rowAt?_eq_some_iff _ _).1 hrow
  obtain ⟨-, hlength, hspells⟩ := (s.readBlock_eq_ok_iff _ _ _).1 hread
  rw [haddress] at hspells
  exact ⟨hlength, hspells⟩

end Memory

/-- The window of a dump is exact.  There are as many rows as were asked for,
as begin at an address, and as end in memory.  Each has the four bytes from
its place on, which is four addresses above that of the row before, so no row
comes twice and none begins at zero again.  If there are fewer than asked for,
the next one would have no address or not be wholly in memory; there are never
more than the address space has room for. -/
theorem window_exact (s : Simulator) (sp center : UInt32) (rows : Nat) :
    let first := center.toNat - min (4 * rows) (UInt32.size - 1) / 2
    let window := around s center rows sp
    IsGreatest {k | k ≤ rows ∧
      ∀ i < k, first + 4 * i < UInt32.size ∧ first + 4 * i + 4 ≤ s.memory.size} window.length ∧
    (∀ i (h : i < window.length), window[i].address.toNat = first + 4 * i ∧
      window[i].bytes.length = 4 ∧ s.memory.Spells (first + 4 * i) window[i].bytes) ∧
    (∀ i (h : i + 1 < window.length),
      window[i + 1].address.toNat = window[i].address.toNat + 4) ∧
    (window.map DumpRow.address).Pairwise (· < ·) ∧
    (window.length < rows → UInt32.size ≤ first + 4 * window.length ∨
      s.memory.size < first + 4 * window.length + 4) ∧
    window.length ≤ UInt32.size / 4 := by
  intro first window
  have hexists : ∀ i, i < window.length ↔
      i < rows ∧ first + 4 * i < UInt32.size ∧ first + 4 * i + 4 ≤ s.memory.size :=
    lt_length_around_iff s sp center rows
  have hplace : ∀ i (h : i < window.length), window[i].address.toNat = first + 4 * i :=
    address_around s sp center rows
  refine ⟨⟨⟨(isWindow_around s sp center rows).length_le, fun i hi => ((hexists i).1 hi).2⟩, ?_⟩,
    fun i h => ⟨hplace i h, spells_around s sp center rows h⟩, fun i h => ?_, ?_, fun hshort => ?_,
    ?_⟩
  · rintro k ⟨hk, hall⟩
    apply Nat.le_of_not_lt
    intro hmore
    have hrow := (hexists window.length).2 ⟨by omega, hall _ (by omega)⟩
    omega
  · rw [hplace, hplace]
    omega
  · rw [List.pairwise_map, List.pairwise_iff_getElem]
    intro i j hi hj hij
    rw [UInt32.lt_iff_toNat_lt, hplace, hplace]
    omega
  · have hnext := (hexists window.length).not.1 (Nat.lt_irrefl _)
    omega
  · apply Nat.le_of_not_lt
    intro hmore
    have hwords : UInt32.size = 4 * (UInt32.size / 4) := rfl
    have hrow := (hexists (UInt32.size / 4)).1 hmore
    omega

/-- At the top of a memory of all addresses four rows are asked for and two
are there; the third would reach over the end. -/
theorem window_at_top :
    (around (Simulator.blank UInt32.size) 0xFFFFFFFF 4 0).length = 2 ∧
      ∀ i (h : i < (around (Simulator.blank UInt32.size) 0xFFFFFFFF 4 0).length),
        (around (Simulator.blank UInt32.size) 0xFFFFFFFF 4 0)[i].address.toNat =
          0xFFFFFFF7 + 4 * i := by
  obtain ⟨hgreatest, hrows, -⟩ := window_exact (Simulator.blank UInt32.size) 0 0xFFFFFFFF 4
  refine ⟨hgreatest.unique ⟨⟨by decide, by decide⟩, ?_⟩, fun i h => (hrows i h).1⟩
  rintro k ⟨-, hall⟩
  apply Nat.le_of_not_lt
  intro hmore
  have hthird := (hall 2 (by omega)).2
  revert hthird
  decide

/-- The greatest number of rows that can be asked for shows all of a small
memory, from address zero on. -/
example : (around (Simulator.blank 16) 8 0xFFFFFFFFFFFFFFFF 0).map DumpRow.address =
    [0, 4, 8, 12] := by
  rfl

/-- The centre is shown exactly if there is a row at all and the row of the
centre, which is counted from the first one, ends in memory.  So it is shown
whenever the three addresses behind it are in memory as well. -/
theorem center_shown_iff (s : Simulator) (sp center : UInt32) (rows : Nat) :
    let first := center.toNat - min (4 * rows) (UInt32.size - 1) / 2
    ((∃ row ∈ around s center rows sp, row.Covers center) ↔
      0 < rows ∧ first + 4 * ((center.toNat - first) / 4) + 4 ≤ s.memory.size) ∧
    (0 < rows → center.toNat + 4 ≤ s.memory.size →
      ∃ row ∈ around s center rows sp, row.Covers center) := by
  intro first
  have hfirst : start center rows = first := rfl
  have hcenter : center.toNat < UInt32.size := center.toNat_lt
  have hshown : (∃ row ∈ around s center rows sp, row.Covers center) ↔
      0 < rows ∧ first + 4 * ((center.toNat - first) / 4) + 4 ≤ s.memory.size := by
    constructor
    · rintro ⟨row, hrow, hcovers⟩
      obtain ⟨i, hi, rfl⟩ := List.getElem_of_mem hrow
      have hnumber := ((covers_around_iff s sp center rows i hi center).1 hcovers).2
      have hbounds := (lt_length_around_iff s sp center rows i).1 hi
      rw [hfirst] at hnumber hbounds
      rw [← hnumber]
      exact ⟨by omega, hbounds.2.2⟩
    · rintro ⟨hrows, hend⟩
      -- at most half of the span lies below the centre
      have hi : (center.toNat - first) / 4 < (around s center rows sp).length := by
        rw [lt_length_around_iff, hfirst]
        omega
      refine ⟨_, List.getElem_mem hi, (covers_around_iff s sp center rows _ hi center).2 ?_⟩
      rw [hfirst]
      omega
  refine ⟨hshown, fun hrows hbehind => hshown.2 ⟨hrows, ?_⟩⟩
  omega

/-- The row of the centre ends with the last byte but one. -/
theorem center_near_end_is_shown :
    0 < 3 ∧ ∃ row ∈ around (Simulator.blank 16) 13 3 0, row.Covers 13 := by
  have hrows : 0 < 3 := by decide
  exact ⟨hrows, (center_shown_iff (Simulator.blank 16) 0 13 3).1.2 ⟨hrows, by decide⟩⟩

/-- A dump of one row around the last byte of memory is empty, since the row
would begin two bytes before and end behind memory. -/
theorem last_byte_is_not_shown :
    ¬ ∀ (s : Simulator) (center : UInt32) (rows : Nat) (sp : UInt32),
      center.toNat < s.memory.size → 1 ≤ rows →
        ∃ row ∈ around s center rows sp, row.Covers center := by
  intro h
  obtain ⟨row, hrow, -⟩ := h (Simulator.blank 16) 15 1 0 (by decide) (Nat.le_refl 1)
  have hnone : around (Simulator.blank 16) 15 1 0 = [] := rfl
  rw [hnone] at hrow
  cases hrow

end Dump

end Monitor68
