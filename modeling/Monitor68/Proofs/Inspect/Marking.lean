import Monitor68.Proofs.Inspect.Window

/-!
# The mark of the stack pointer

A row of a dump is marked for the stack pointer if the pointer lies from its
address up to, but not including, the address behind its bytes.  Behind a row
that ends with the address space there is no address, and the last one takes
its place: the last row of all ends one byte too early.

`marks_exact` says for any engine that this is the only difference: a row is
marked exactly if it covers the stack pointer and this is not the last
address.
-/

namespace Monitor68.Dump

/-- The last address of all. -/
def lastAddress : UInt32 := 0xFFFFFFFF

theorem lt_lastAddress_iff (address : UInt32) :
    address.toNat < UInt32.size - 1 ↔ address ≠ lastAddress := by
  have hlt : address.toNat < UInt32.size := address.toNat_lt
  have hlast : lastAddress.toNat = UInt32.size - 1 := rfl
  rw [ne_eq, ← UInt32.toNat_inj, hlast]
  omega

theorem isMarked_iff (address sp : UInt32) :
    isMarked address sp = true ↔
      (address.toNat ≤ sp.toNat ∧ sp.toNat < address.toNat + DumpRow.width) ∧
        sp ≠ lastAddress := by
  rw [← lt_lastAddress_iff, isMarked, Bool.and_eq_true, decide_eq_true_eq, decide_eq_true_eq,
    UInt32.le_iff_toNat_le, Nat.lt_min, and_assoc]

section Marks

variable {ε : Type} [Engine ε] (e : ε) (sp center : UInt32) (rows : Nat)

/-- A row of a dump is marked exactly if it covers the stack pointer, but for
the last address. -/
theorem marked_around_iff {i : Nat} (h : i < (around e center rows sp).length) :
    (around e center rows sp)[i].marked = true ↔
      (around e center rows sp)[i].Covers sp ∧ sp ≠ lastAddress := by
  have hrow := (isWindow_around e sp center rows).row_at i h
  obtain ⟨-, -, hmarked⟩ := (rowAt?_eq_some_iff _ _).1 hrow
  rw [hmarked]
  exact isMarked_iff _ sp

/-- The rows of a dump cover the addresses from the first row up to the end of
the last one. -/
theorem exists_covers_around_iff (address : UInt32) :
    (∃ row ∈ around e center rows sp, row.Covers address) ↔
      start center rows ≤ address.toNat ∧
        address.toNat < start center rows + 4 * (around e center rows sp).length := by
  constructor
  · rintro ⟨row, hrow, hcovers⟩
    obtain ⟨i, hi, rfl⟩ := List.getElem_of_mem hrow
    have hnumber := (covers_around_iff e sp center rows i hi address).1 hcovers
    omega
  · rintro ⟨hfirst, hend⟩
    have hi : (address.toNat - start center rows) / 4 < (around e center rows sp).length := by
      omega
    refine ⟨_, List.getElem_mem hi, ?_⟩
    rw [covers_around_iff]
    exact ⟨hfirst, rfl⟩

end Marks

/-- The mark of a dump is exact but for the last address.  No two rows are
marked, and a row is marked exactly if one of its bytes has the address in the
stack pointer and this is not the last address of all.  So marked and covering
are the same unless the stack pointer is the last address and a row covers it;
and some row is marked exactly if the stack pointer lies in the dumped range
and is not the last address. -/
theorem marks_exact {ε : Type} [Engine ε] (e : ε) (sp center : UInt32) (rows : Nat) :
    let window := around e center rows sp
    (∀ i j (hi : i < window.length) (hj : j < window.length),
      window[i].marked = true → window[j].marked = true → i = j) ∧
    (∀ row ∈ window, row.marked = true ↔ row.Covers sp ∧ sp ≠ lastAddress) ∧
    ((∀ row ∈ window, row.marked = true ↔ row.Covers sp) ↔
      ¬ (sp = lastAddress ∧ ∃ row ∈ window, row.Covers sp)) ∧
    ((∃ row ∈ window, row.marked = true) ↔
      (start center rows ≤ sp.toNat ∧ sp.toNat < start center rows + 4 * window.length) ∧
        sp ≠ lastAddress) := by
  intro window
  have hmarked : ∀ row ∈ window, row.marked = true ↔ row.Covers sp ∧ sp ≠ lastAddress := by
    intro row hrow
    obtain ⟨i, hi, rfl⟩ := List.getElem_of_mem hrow
    exact marked_around_iff e sp center rows hi
  refine ⟨fun i j hi hj hfirst hsecond => ?_, hmarked, ?_, ?_⟩
  · have hi' := ((marked_around_iff e sp center rows hi).1 hfirst).1
    have hj' := ((marked_around_iff e sp center rows hj).1 hsecond).1
    rw [covers_around_iff] at hi' hj'
    omega
  · constructor
    · rintro hexact ⟨hlast, row, hrow, hcovers⟩
      exact ((hmarked row hrow).1 ((hexact row hrow).2 hcovers)).2 hlast
    · intro hrare row hrow
      rw [hmarked row hrow]
      refine ⟨fun h => h.1, fun hcovers => ⟨hcovers, fun hlast => ?_⟩⟩
      exact hrare ⟨hlast, row, hrow, hcovers⟩
  · rw [← exists_covers_around_iff]
    constructor
    · rintro ⟨row, hrow, hmark⟩
      obtain ⟨hcovers, hlast⟩ := (hmarked row hrow).1 hmark
      exact ⟨⟨row, hrow, hcovers⟩, hlast⟩
    · rintro ⟨⟨row, hrow, hcovers⟩, hlast⟩
      exact ⟨row, hrow, (hmarked row hrow).2 ⟨hcovers, hlast⟩⟩

/-- The stack pointer lies in the third of four rows. -/
theorem stack_row_is_marked :
    ∃ row ∈ around (Simulator.blank 0x10000) 0x9200 4 0x9202,
      row.marked = true ∧ row.Covers 0x9202 := by
  obtain ⟨-, hmarked, -, hsome⟩ := marks_exact (Simulator.blank 0x10000) 0x9202 0x9200 4
  have hthird : 2 < (around (Simulator.blank 0x10000) 0x9200 4 0x9202).length :=
    (lt_length_around_iff _ _ _ _ 2).2 (by decide)
  have hrange : 0x91F8 ≤ 0x9202 ∧
      0x9202 < 0x91F8 + 4 * (around (Simulator.blank 0x10000) 0x9200 4 0x9202).length := by
    omega
  obtain ⟨row, hrow, hmark⟩ := hsome.2 ⟨hrange, by decide⟩
  exact ⟨row, hrow, hmark, ((hmarked row hrow).1 hmark).1⟩

/-- In a memory of all addresses the last row shows the last address, and is
not marked for it. -/
theorem last_address_is_not_marked :
    ¬ ∀ (s : Simulator) (sp center : UInt32) (rows : Nat), s.memory.size ≤ UInt32.size →
      ∀ row ∈ around s center rows sp, row.marked = true ↔ row.Covers sp := by
  intro h
  have hrow : 0 < (around (Simulator.blank UInt32.size) 0xFFFFFFFE 1 lastAddress).length :=
    (lt_length_around_iff _ _ _ _ 0).2 (by decide)
  have hcovers := (covers_around_iff _ _ _ _ 0 hrow lastAddress).2 (by decide)
  have hmark := (h (Simulator.blank UInt32.size) lastAddress 0xFFFFFFFE 1 (Nat.le_refl _) _
    (List.getElem_mem hrow)).2 hcovers
  exact ((marked_around_iff _ _ _ _ hrow).1 hmark).2 rfl

end Monitor68.Dump
