import Monitor68.Proofs.Threads.Engine
import Monitor68.Proofs.Threads.Reliance

/-!
# Registers behind a lock

Two parties execute instructions on a simulator: the thread that commands
it and the thread that executes continuously.  To execute an instruction
is several steps.  The power and the size of the memory are looked at
first; then the registers are locked, the program counter is moved on, the
instruction is counted, and the lock is given back.  The count is a cell
of its own, which the lock does not cover by itself.

`step` is this script, and alone it does what `Simulator.stepOne` says
(`step_leads`).  Among the steps of the other party the program counter
and the count stay together (`step_upholds`): whenever nobody has the lock,
the program counter has moved on by two for every instruction counted
since the registers were placed.
-/

namespace Monitor68

/-- The registers after some more instructions. -/
def Registers.advanced (r : Registers) (count : Nat) : Registers :=
  { r with pc := r.pc + UInt32.ofNat (2 * count) }

@[simp] theorem Registers.advanced_zero (r : Registers) : r.advanced 0 = r := by
  simp [advanced]

/-- One instruction more. -/
theorem Registers.advanced_succ (r : Registers) (count : Nat) :
    r.advanced (count + 1) = { r.advanced count with pc := (r.advanced count).pc + 2 } := by
  have hpc : r.pc + UInt32.ofNat (2 * (count + 1)) = r.pc + UInt32.ofNat (2 * count) + 2 := by
    rw [Nat.mul_add, UInt32.ofNat_add, UInt32.add_assoc]
    rfl
  simp only [advanced, hpc]

namespace Simulator

open Script

/-- Who executes an instruction. -/
inductive Party where
  | commander
  | runner
deriving DecidableEq, Repr

/-- The cells of a simulator and the lock of its registers. -/
structure Cells where
  engine : Simulator
  lock : Option Party := none
  /-- The registers as they were when they were last placed at an entry. -/
  placed : Registers
  /-- The instructions that had been counted then. -/
  since : Nat

namespace Cells

/-- The cells of a simulator that nobody uses. -/
def of (s : Simulator) : Cells := { engine := s, placed := s.registers, since := s.steps }

/-! ## An instruction, step by step -/

def setLock (lock : Option Party) (c : Cells) : Cells := { c with lock }

def setPc (pc : UInt32) (c : Cells) : Cells :=
  { c with engine := { c.engine with registers := { c.engine.registers with pc } } }

def count (c : Cells) : Cells :=
  { c with engine := { c.engine with steps := c.engine.steps + 1 } }

/-- Lock the registers, once they are not locked. -/
def acquire (who : Party) : Script Cells Unit :=
  once (fun c => c.lock = none) fun c => ((), c.setLock (some who))

/-- Move on to the next program counter if it is in memory, and give the lock
back. -/
def moveTo (next : UInt32) (size : Nat) : Script Cells (Except EngineError UInt32) :=
  if next.toNat < size then do
    change (setPc next)
    change count
    change (setLock none)
    pure (.ok next)
  else do
    change (setLock none)
    pure (.error (.invalidAddress next))

/-- Execute one instruction.  The answer is the program counter it leads to. -/
def step (who : Party) : Script Cells (Except EngineError UInt32) := do
  let powered ← look fun c => c.engine.powered
  if powered then
    let size ← look fun c => c.engine.memory.size
    acquire who
    let pc ← look fun c => c.engine.registers.pc
    moveTo (pc + 2) size
  else pure (.error .notPowered)

/-- An instruction that nobody else gets in the way of. -/
theorem step_leads {R : Cells → Cells → Prop} (who : Party) {c : Cells} (h : c.lock = none) :
    Leads R (step who) c (c.engine.stepOne.map fun e => e.registers.pc)
      { c with engine := c.engine.stepOne.toOption.getD c.engine } := by
  obtain ⟨e, lock, placed, since⟩ := c
  obtain rfl : lock = none := h
  unfold step
  refine .bind (.once rfl) ?_
  cases hpower : e.powered with
  | false =>
    have hstep : e.stepOne = .error .notPowered := if_neg (by simp [hpower])
    simp only [hpower, hstep]
    exact .done
  | true =>
    have hstep : e.stepOne = e.advance := if_pos hpower
    simp only [hpower, hstep, ↓reduceIte]
    refine .bind (.once rfl) (.bind (.once rfl) (.bind (.once rfl) ?_))
    unfold moveTo
    split
    next hfits =>
      have hadvance : e.advance = .ok { e with
          registers := { e.registers with pc := e.registers.pc + 2 }
          steps := e.steps + 1 } := if_pos hfits
      rw [hadvance]
      exact .bind (.once rfl) (.bind (.once rfl) (.bind (.once rfl) .done))
    next hfits =>
      have hadvance : e.advance = .error (.invalidAddress (e.registers.pc + 2)) := if_neg hfits
      rw [hadvance]
      exact .bind (.once rfl) .done

/-! ## What the two parties owe each other -/

/-- The program counter is ahead of the count by so many instructions. -/
structure Ahead (lag : Nat) (c : Cells) : Prop where
  since : c.since ≤ c.engine.steps
  registers : c.engine.registers = c.placed.advanced (c.engine.steps - c.since + lag)

/-- The program counter and the count agree, or the one who has the lock is
about to count. -/
def Near (c : Cells) : Prop := c.Ahead 0 ∨ c.lock ≠ none ∧ c.Ahead 1

/-- The program counter has moved on from some registers by two for every
instruction counted since some moment.  While the registers are locked it
may be ahead by one instruction. -/
structure Counted (origin : Registers) (since : Nat) (c : Cells) : Prop where
  le : since ≤ c.engine.steps
  free : c.lock = none → c.engine.registers = origin.advanced (c.engine.steps - since)
  ahead : c.engine.registers = origin.advanced (c.engine.steps - since) ∨
    c.engine.registers = origin.advanced (c.engine.steps - since + 1)

theorem Near.counted {c : Cells} (h : c.Near) : c.Counted c.placed c.since := by
  rcases h with ⟨hsince, hregisters⟩ | ⟨hlocked, hsince, hregisters⟩
  · exact ⟨hsince, fun _ => hregisters, .inl hregisters⟩
  · exact ⟨hsince, fun hfree => absurd hfree hlocked, .inr hregisters⟩

/-- What a party may count on while the other one moves. -/
structure Beside (who : Party) (c c' : Cells) : Prop where
  near : c.Near → c'.Near
  mine : c.lock = some who → c'.lock = some who ∧ c'.engine.registers = c.engine.registers ∧
    c'.engine.steps = c.engine.steps ∧ c'.placed = c.placed ∧ c'.since = c.since
  others : c.lock ≠ some who → c'.lock ≠ some who

theorem Ahead.congr {lag : Nat} {c c' : Cells} (h : c.Ahead lag)
    (hregisters : c'.engine.registers = c.engine.registers)
    (hsteps : c'.engine.steps = c.engine.steps) (hplaced : c'.placed = c.placed)
    (hsince : c'.since = c.since) : c'.Ahead lag := by
  obtain ⟨hle, hahead⟩ := h
  constructor
  · rwa [hsince, hsteps]
  · rwa [hregisters, hplaced, hsteps, hsince]

/-- One more program counter. -/
theorem Ahead.setPc {pc : UInt32} {c : Cells} (h : c.Ahead 0) (hpc : c.engine.registers.pc = pc) :
    (c.setPc (pc + 2)).Ahead 1 := by
  obtain ⟨hle, hregisters⟩ := h
  refine ⟨hle, ?_⟩
  show { c.engine.registers with pc := pc + 2 } = _
  rw [← hpc, hregisters]
  exact (Registers.advanced_succ _ _).symm

/-- One more instruction counted. -/
theorem Ahead.count {c : Cells} (h : c.Ahead 1) : c.count.Ahead 0 := by
  obtain ⟨hle, hregisters⟩ := h
  refine ⟨Nat.le_succ_of_le hle, ?_⟩
  have hcount : c.engine.steps + 1 - c.since + 0 = c.engine.steps - c.since + 1 := by omega
  show c.engine.registers = c.placed.advanced (c.engine.steps + 1 - c.since + 0)
  rw [hcount, hregisters]

/-- A move that touches neither the lock nor what it covers. -/
theorem Beside.of_eq {who : Party} {c c' : Cells} (hlock : c'.lock = c.lock)
    (hregisters : c'.engine.registers = c.engine.registers)
    (hsteps : c'.engine.steps = c.engine.steps) (hplaced : c'.placed = c.placed)
    (hsince : c'.since = c.since) : Beside who c c' where
  near h := h.imp (fun h => h.congr hregisters hsteps hplaced hsince) fun h =>
    ⟨hlock ▸ h.1, h.2.congr hregisters hsteps hplaced hsince⟩
  mine h := ⟨hlock.trans h, hregisters, hsteps, hplaced, hsince⟩
  others h := hlock ▸ h

/-- What a party promises with each step of an instruction. -/
structure Steps (who : Party) (c c' : Cells) : Prop where
  beside : ∀ other, other ≠ who → Beside other c c'
  placed : c'.placed = c.placed
  since : c'.since = c.since

/-- A step that touches neither the lock nor what it covers. -/
theorem Steps.of_eq {who : Party} {c c' : Cells} (hlock : c'.lock = c.lock)
    (hregisters : c'.engine.registers = c.engine.registers)
    (hsteps : c'.engine.steps = c.engine.steps) (hplaced : c'.placed = c.placed)
    (hsince : c'.since = c.since) : Steps who c c' :=
  ⟨fun _ _ => .of_eq hlock hregisters hsteps hplaced hsince, hplaced, hsince⟩

/-- Who has the lock may do as it likes with what the lock covers, if the
program counter and the count stay together. -/
theorem Beside.of_mine {who other : Party} {c c' : Cells} (hother : other ≠ who)
    (hlock : c.lock = some who) (hnear : c'.Near) (hlock' : c'.lock ≠ some other) :
    Beside other c c' where
  near _ := hnear
  mine h := by
    rw [hlock] at h
    cases h
    exact absurd rfl hother
  others _ := hlock'

/-- A party among the steps of the other one. -/
def party (who : Party) : Aspect (Beside who) Cells :=
  .whole (Beside who) (Steps who) fun _ => .of_eq rfl rfl rfl rfl rfl

/-- A party does not have the lock. -/
def without (who : Party) : Reliable (Beside who) where
  holds c := c.Near ∧ c.lock ≠ some who
  stable := fun _ _ hc hmove => ⟨hmove.near hc.1, hmove.others hc.2⟩

/-- A party has the lock, and the program counter is ahead of the count. -/
def holding (who : Party) (lag : Nat) (pc : Option UInt32) : Reliable (Beside who) where
  holds c := c.lock = some who ∧ c.Ahead lag ∧ ∀ p ∈ pc, c.engine.registers.pc = p
  stable := by
    intro c c' hc hmove
    obtain ⟨hlock, hahead, hpc⟩ := hc
    obtain ⟨hlock', hregisters, hsteps, hplaced, hsince⟩ := hmove.mine hlock
    exact ⟨hlock', hahead.congr hregisters hsteps hplaced hsince, fun p hp => hregisters ▸ hpc p hp⟩

section Spec

variable {who : Party}

/-- Who finds the lock free may take it. -/
theorem steps_acquire {c : Cells} (h : c.Near) (hfree : c.lock = none) :
    Steps who c (c.setLock (some who)) ∧ (holding who 0 none).holds (c.setLock (some who)) := by
  have hahead : c.Ahead 0 := h.resolve_right fun hlocked => hlocked.1 hfree
  have hahead' : (c.setLock (some who)).Ahead 0 := hahead.congr rfl rfl rfl rfl
  refine ⟨⟨fun other hother => ⟨fun _ => .inl hahead', fun hmine => ?_, fun _ h => ?_⟩, rfl, rfl⟩,
    rfl, hahead', by simp⟩
  · cases hfree.symm.trans hmine
  · exact hother (Option.some.inj h).symm

/-- Who has the lock may give it back when the count agrees. -/
theorem steps_release {pc : Option UInt32} {c : Cells} (h : (holding who 0 pc).holds c) :
    Steps who c (c.setLock none) ∧ (without who).holds (c.setLock none) := by
  obtain ⟨hlock, hahead, -⟩ := h
  have hnear : (c.setLock none).Near := .inl (hahead.congr rfl rfl rfl rfl)
  have hfree (party : Party) : (c.setLock none).lock ≠ some party := by simp [setLock]
  exact ⟨⟨fun other hother => .of_mine hother hlock hnear (hfree other), rfl, rfl⟩, hnear,
    hfree who⟩

theorem acquire_upholds : (party who).Upholds (without who) (acquire who) fun _ =>
    holding who 0 none :=
  .once fun _ hc hready => steps_acquire hc.1 (of_decide_eq_true hready)

theorem release_upholds {pc : Option UInt32} :
    (party who).Upholds (holding who 0 pc) (change (setLock none)) fun _ => without who :=
  .once fun _ hc _ => steps_release hc

theorem setPc_upholds {pc : UInt32} :
    (party who).Upholds (holding who 0 (some pc)) (change (setPc (pc + 2))) fun _ =>
      holding who 1 none := by
  refine .once fun c hc _ => ?_
  have hlock : c.lock = some who := hc.1
  have hahead : (c.setPc (pc + 2)).Ahead 1 := hc.2.1.setPc (hc.2.2 pc rfl)
  have hnear : (c.setPc (pc + 2)).Near := .inr ⟨by simp [setPc, hlock], hahead⟩
  refine ⟨⟨fun other hother => .of_mine hother hlock hnear fun h => ?_, rfl, rfl⟩, hlock, hahead,
    by simp⟩
  exact hother (Option.some.inj (hlock.symm.trans h)).symm

theorem count_upholds :
    (party who).Upholds (holding who 1 none) (change count) fun _ => holding who 0 none := by
  refine .once fun c hc _ => ?_
  have hlock : c.lock = some who := hc.1
  have hahead : c.count.Ahead 0 := hc.2.1.count
  refine ⟨⟨fun other hother => .of_mine hother hlock (.inl hahead) fun h => ?_, rfl, rfl⟩, hlock,
    hahead, by simp⟩
  exact hother (Option.some.inj (hlock.symm.trans h)).symm

/-- Among the steps of the other party an instruction is counted once, with the
program counter. -/
theorem step_upholds :
    (party who).Upholds (without who) (step who) fun _ => without who := by
  unfold step
  refine .bind (M := fun _ => without who) (.look fun c hc => hc) fun powered => ?_
  cases powered with
  | false => exact .pure fun _ => id
  | true =>
    rw [if_pos rfl]
    refine .bind (M := fun _ => without who) (.look fun c hc => hc) fun size => ?_
    refine acquire_upholds.bind fun _ => ?_
    refine .bind (M := fun pc => holding who 0 (some pc)) (.look fun c hc => ?_) fun pc => ?_
    · exact ⟨hc.1, hc.2.1, fun p hp => Option.some.inj hp⟩
    unfold moveTo
    split
    · refine setPc_upholds.bind fun _ => ?_
      refine count_upholds.bind fun _ => ?_
      exact release_upholds.bind fun _ => .pure fun _ => id
    · exact release_upholds.bind fun _ => .pure fun _ => id

end Spec

end Cells

end Simulator

end Monitor68
