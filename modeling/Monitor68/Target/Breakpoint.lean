import Monitor68.Target.Engine

/-!
# Tracked breakpoints

An engine has numbered breakpoint slots and does not say which are free,
so the debugger tracks what it has set.  A new breakpoint takes the lowest
slot that no tracked one holds; the engine is asked first, and nothing is
tracked if it refuses.
-/

namespace Monitor68

/-- A breakpoint in a slot of the engine. -/
structure Breakpoint where
  slot : Nat
  address : UInt32
  mask : AccessMask
deriving DecidableEq, Repr

/-- The breakpoints that the debugger has set, oldest first. -/
structure TrackedBreakpoints where
  list : List Breakpoint := []
deriving DecidableEq, Repr

namespace TrackedBreakpoints

def empty : TrackedBreakpoints := {}

/-- Whether no tracked breakpoint holds a slot. -/
def isFree (t : TrackedBreakpoints) (slot : Nat) : Bool := t.list.all (·.slot != slot)

/-- The lowest free slot.  Among one more slots than there are tracked
breakpoints one is free, so no further slot is looked at. -/
def nextFreeSlot (t : TrackedBreakpoints) : Nat :=
  ((List.range (t.list.length + 1)).find? t.isFree).getD 0

/-- The next free slot is free: so many slots cannot all be held by one
breakpoint fewer. -/
theorem isFree_nextFreeSlot (t : TrackedBreakpoints) : t.isFree t.nextFreeSlot = true := by
  unfold nextFreeSlot
  cases h : (List.range (t.list.length + 1)).find? t.isFree with
  | some slot => exact List.find?_some h
  | none =>
    exfalso
    have hall : ∀ slot ∈ List.range (t.list.length + 1), slot ∈ t.list.map (·.slot) := by
      intro slot hslot
      have hfree := List.find?_eq_none.1 h slot hslot
      rw [Bool.not_eq_true] at hfree
      obtain ⟨b, hb, hbs⟩ := List.all_eq_false.1 hfree
      exact List.mem_map.2 ⟨b, hb, by simpa using hbs⟩
    have hle := (List.nodup_range (n := t.list.length + 1)).length_le_of_subset hall
    simp only [List.length_range, List.length_map] at hle
    omega

/-- Set a breakpoint in the lowest free slot. -/
def set {ε : Type} [Engine ε] (t : TrackedBreakpoints) (e : ε) (address : UInt32)
    (mask : AccessMask) : Except EngineError (Breakpoint × TrackedBreakpoints × ε) :=
  let slot := t.nextFreeSlot
  match Engine.setBreakpoint e slot address mask with
  | .error error => .error error
  | .ok e' =>
    let b := { slot, address, mask }
    .ok (b, { list := t.list ++ [b] }, e')

/-- Clear all breakpoints, on the engine and here. -/
def clear {ε : Type} [Engine ε] (e : ε) : TrackedBreakpoints × ε :=
  (.empty, Engine.clearBreakpoints e)

end TrackedBreakpoints

end Monitor68
