import Monitor68.Target.Restricted
import Monitor68.Target.Simulator

/-!
# Breakpoint slots

There are two copies of the breakpoints: the list that is tracked and the
table of slots in the engine.  They are kept in step by whoever sets and
clears breakpoints, since an engine is never asked for its table.

`Slotted` is an engine whose table can be talked about.  What it asks for
is little: a breakpoint that is set goes into its slot, to clear empties
the table, and no other operation touches it.  Every operation may be
refused at any time; a refusal to set a breakpoint has a name, because it
decides what the caller is told.

`Tracks` says that a list and a table agree: the breakpoints of the list
are numbered from zero and fill the table from its beginning.  Then the
next free slot is the number of breakpoints, and both list the same.
-/

namespace Monitor68

/-- What the sixteen slots of an engine hold. -/
abbrev SlotTable := Vector (Option Stop) 16

namespace SlotTable

/-- No slot is occupied. -/
def blank : SlotTable := .replicate 16 none

/-- The breakpoint that is found in a slot. -/
def found : Option Stop × Nat → Option Breakpoint
  | (stop, slot) => stop.map fun stop => { slot, address := stop.address, mask := stop.mask }

/-- The breakpoints of a table, in the order of their slots. -/
def breakpoints (t : SlotTable) : List Breakpoint := t.toList.zipIdx.filterMap found

/-- The table of a simulator lists what the simulator lists. -/
theorem breakpoints_slots (s : Simulator) : breakpoints s.slots = s.breakpoints := rfl

end SlotTable

/-! ## Engines with slots -/

/-- An engine with sixteen breakpoint slots. -/
class Slotted (ε : Type) [Engine ε] where
  slots : ε → SlotTable
  /-- The error with which the engine would refuse now to set a breakpoint. -/
  refusal : ε → (slot : Nat) → UInt32 → AccessMask → Option EngineError
  slots_reset {e e' : ε} {entry stack : UInt32} (h : Engine.reset e entry stack = .ok e') :
    slots e' = slots e
  slots_stepOne {e e' : ε} (h : Engine.stepOne e = .ok e') : slots e' = slots e
  slots_run {e e' : ε} (h : Engine.run e = .ok e') : slots e' = slots e
  slots_shutdown {e e' : ε} (h : Engine.shutdown e = .ok e') : slots e' = slots e
  slots_writeByte {e e' : ε} {address : UInt32} {value : UInt8}
    (h : Engine.writeByte e address value = .ok e') : slots e' = slots e
  slots_writeBlock (e : ε) (address : UInt32) (data : List UInt8) :
    slots (Engine.writeBlock e address data).1 = slots e
  slots_clear (e : ε) : slots (Engine.clearBreakpoints e) = .blank
  set_of_refusal {e : ε} {slot : Nat} {address : UInt32} {mask : AccessMask}
    {error : EngineError} (h : refusal e slot address mask = some error) :
    Engine.setBreakpoint e slot address mask = .error error
  set_beyond {e : ε} {slot : Nat} {address : UInt32} {mask : AccessMask}
    (h : refusal e slot address mask = none) (hslot : 16 ≤ slot) :
    Engine.setBreakpoint e slot address mask = .error (.invalidBreakpointSlot slot)
  set_within {e : ε} {slot : Nat} {address : UInt32} {mask : AccessMask}
    (h : refusal e slot address mask = none) (hslot : slot < 16) :
    ∃ e', Engine.setBreakpoint e slot address mask = .ok e' ∧
      slots e' = (slots e).set slot (some { address, mask })

open Slotted

/-- The simulator refuses nothing. -/
instance : Slotted Simulator where
  slots s := s.slots
  refusal _ _ _ _ := none
  slots_reset h := by cases h; rfl
  slots_stepOne {e e'} h := by
    have h' : e.stepOne = .ok e' := h
    unfold Simulator.stepOne at h'
    simp only at h'
    split at h'
    · split at h' <;> cases h'
      rfl
    · cases h'
  slots_run {e e'} h := by
    have h' : e.run = .ok e' := h
    unfold Simulator.run at h'
    split at h' <;> cases h'
    rfl
  slots_shutdown {e e'} h := by
    have h' : e.shutdown = .ok e' := h
    unfold Simulator.shutdown at h'
    split at h' <;> cases h'
    rfl
  slots_writeByte {e e' address value} h := by
    have h' : e.writeByte address value = .ok e' := h
    unfold Simulator.writeByte at h'
    split at h' <;> cases h'
    rfl
  slots_writeBlock e address data := by
    show (e.writeBlock address data).1.slots = e.slots
    unfold Simulator.writeBlock
    split <;> rfl
  slots_clear _ := rfl
  set_of_refusal h := by cases h
  set_beyond {e slot address mask} _ hslot := by
    show e.setBreakpoint slot address mask = _
    rw [Simulator.setBreakpoint, dif_neg (by omega)]
  set_within {e slot address mask} _ hslot := by
    refine ⟨{ e with slots := e.slots.set slot (some { address, mask }) }, ?_, rfl⟩
    show e.setBreakpoint slot address mask = _
    rw [Simulator.setBreakpoint, dif_pos hslot]

namespace Restricted

variable {ε : Type}

/-- An operation that was done changed the engine inside. -/
theorem change_ok {r r' : Restricted ε} {op : Operation} {answer : Except EngineError ε}
    (h : r.change op answer = .ok r') : ∃ inner, answer = .ok inner ∧ r' = { r with inner } := by
  unfold change guarded at h
  split at h
  · cases h
  · cases answer with
    | error error => cases h
    | ok inner =>
      cases h
      exact ⟨inner, rfl, rfl⟩

variable [Engine ε] [Slotted ε]

theorem slots_of_change {r r' : Restricted ε} {op : Operation} {answer : Except EngineError ε}
    (h : r.change op answer = .ok r')
    (hslots : ∀ inner, answer = .ok inner → slots inner = slots r.inner) :
    slots r'.inner = slots r.inner := by
  obtain ⟨inner, hinner, rfl⟩ := change_ok h
  exact hslots inner hinner

/-- Bytes that are written one at a time leave the slots alone. -/
theorem slots_writeEachFrom (address : UInt32) (r : Restricted ε) (offset : Nat)
    (data : List UInt8) :
    slots (Engine.writeEachFrom writeByte address r offset data).1.inner = slots r.inner := by
  induction data generalizing r offset with
  | nil => rfl
  | cons b bs ih =>
    rw [Engine.writeEachFrom]
    cases Engine.offsetAddress? address offset with
    | none => rfl
    | some target =>
      simp only
      cases h : r.writeByte target b with
      | error error => rfl
      | ok r' =>
        rw [ih]
        exact slots_of_change h fun _ => slots_writeByte

instance : Slotted (Restricted ε) where
  slots r := slots r.inner
  refusal r slot address mask :=
    if .setBreakpoint ∈ r.refused then some .notPowered
    else refusal r.inner slot address mask
  slots_reset h := slots_of_change h fun _ => slots_reset
  slots_stepOne h := slots_of_change h fun _ => slots_stepOne
  slots_run h := slots_of_change h fun _ => slots_run
  slots_shutdown h := slots_of_change h fun _ => slots_shutdown
  slots_writeByte h := slots_of_change h fun _ => slots_writeByte
  slots_writeBlock r address data := by
    show slots (r.writeBlock address data).1.inner = slots r.inner
    unfold writeBlock
    split
    · exact slots_writeEachFrom address r 0 data
    · split
      · rfl
      · exact slots_writeBlock r.inner address data
  slots_clear r := slots_clear r.inner
  set_of_refusal {r slot address mask error} h := by
    show r.change .setBreakpoint _ = _
    unfold change guarded
    split at h
    · rename_i hrefused
      cases h
      rw [if_pos hrefused]
    · rename_i hwilling
      rw [if_neg hwilling, set_of_refusal h]
      rfl
  set_beyond {r slot address mask} h hslot := by
    show r.change .setBreakpoint _ = _
    unfold change guarded
    split at h
    · cases h
    · rename_i hwilling
      rw [if_neg hwilling, set_beyond h hslot]
      rfl
  set_within {r slot address mask} h hslot := by
    split at h
    · cases h
    · rename_i hwilling
      obtain ⟨inner, hset, hslots⟩ := set_within h hslot
      refine ⟨{ r with inner }, ?_, hslots⟩
      show r.change .setBreakpoint _ = _
      unfold change guarded
      rw [if_neg hwilling, hset]
      rfl

end Restricted

/-! ## Lists and tables that agree -/

namespace TrackedBreakpoints

/-- What a breakpoint puts into its slot. -/
def stopOf (b : Breakpoint) : Option Stop := some { address := b.address, mask := b.mask }

/-- A tracked list and a table agree. -/
structure Tracks (t : TrackedBreakpoints) (table : SlotTable) : Prop where
  numbered : t.list.map (·.slot) = List.range t.list.length
  filled : table.toList = t.list.map stopOf ++ List.replicate (16 - t.list.length) none

variable {t : TrackedBreakpoints} {table : SlotTable}

theorem tracks_blank : empty.Tracks .blank where
  numbered := rfl
  filled := rfl

theorem Tracks.length_le (h : t.Tracks table) : t.list.length ≤ 16 := by
  have hlength := congrArg List.length h.filled
  simp only [Vector.length_toList, List.length_append, List.length_map, List.length_replicate]
    at hlength
  omega

/-- A slot is free exactly if it is behind the tracked breakpoints. -/
theorem Tracks.isFree_iff (h : t.Tracks table) (slot : Nat) :
    t.isFree slot = true ↔ t.list.length ≤ slot := by
  have hmem : slot ∈ t.list.map (·.slot) ↔ slot < t.list.length := by
    rw [h.numbered, List.mem_range]
  have hfree : t.isFree slot = true ↔ slot ∉ t.list.map (·.slot) := by
    simp [isFree]
  rw [hfree, hmem, Nat.not_lt]

/-- The next free slot is the number of tracked breakpoints. -/
theorem Tracks.nextFreeSlot_eq (h : t.Tracks table) : t.nextFreeSlot = t.list.length := by
  have hfind : (List.range (t.list.length + 1)).find? t.isFree = some t.list.length := by
    rw [List.find?_range_eq_some]
    refine ⟨(h.isFree_iff _).2 (Nat.le_refl _), by simp, ?_⟩
    intro slot hslot
    rw [Bool.not_eq_true', ← Bool.not_eq_true, h.isFree_iff]
    omega
  rw [nextFreeSlot, hfind, Option.getD_some]

/-- A breakpoint in the next free slot goes to the end of the list. -/
theorem Tracks.push (h : t.Tracks table) (hlt : t.list.length < 16) (address : UInt32)
    (mask : AccessMask) :
    Tracks { list := t.list ++ [{ slot := t.list.length, address, mask }] }
      (table.set t.list.length (some { address, mask })) where
  numbered := by
    simp [h.numbered, List.range_succ]
  filled := by
    obtain ⟨k, hk⟩ : ∃ k, 16 - t.list.length = k + 1 := ⟨15 - t.list.length, by omega⟩
    have hrest : 16 - (t.list.length + 1) = k := by omega
    simp [Vector.toList_set, h.filled, hk, hrest, List.replicate_succ, stopOf]

/-- Numbered breakpoints are found in the slots that they fill. -/
theorem filterMap_found_stopOf (list : List Breakpoint) (start : Nat)
    (h : list.map (·.slot) = List.range' start list.length) :
    ((list.map stopOf).zipIdx start).filterMap SlotTable.found = list := by
  induction list generalizing start with
  | nil => rfl
  | cons b bs ih =>
    simp only [List.map_cons, List.length_cons, List.range'_succ, List.cons.injEq] at h
    obtain ⟨hslot, hrest⟩ := h
    simp only [List.map_cons, List.zipIdx_cons, List.filterMap_cons, ih (start + 1) hrest]
    rw [← hslot]
    rfl

theorem filterMap_found_replicate (n start : Nat) :
    ((List.replicate n none).zipIdx start).filterMap SlotTable.found = [] := by
  rw [List.filterMap_eq_nil_iff]
  intro p hp
  obtain ⟨stop, slot⟩ := p
  have hstop : stop = none := (List.mem_replicate.1 (List.fst_mem_of_mem_zipIdx hp)).2
  rw [hstop]
  rfl

/-- A list and a table that agree list the same breakpoints. -/
theorem Tracks.breakpoints_eq (h : t.Tracks table) : table.breakpoints = t.list := by
  have hnumbered := h.numbered
  rw [List.range_eq_range'] at hnumbered
  rw [SlotTable.breakpoints, h.filled, List.zipIdx_append, List.filterMap_append,
    filterMap_found_stopOf t.list 0 hnumbered, filterMap_found_replicate, List.append_nil]

end TrackedBreakpoints

end Monitor68
