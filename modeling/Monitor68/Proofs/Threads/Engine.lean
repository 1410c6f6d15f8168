import Monitor68.Proofs.Threads.Script
import Monitor68.Target.Simulator

/-!
# Engines and their threads

An engine executes continuously on a thread of its own, and the operations
that start and end the execution are several steps each, between which
that thread moves.  `Threaded` gives these operations of an engine as
scripts over a `Machine`, which is the engine together with its threads.

The simulator keeps its condition in cells that are read and written one
at a time: the power, the running flag, the registers.  Its threads go
round a loop of four places, and end by clearing the running flag.  Each
start of continuous execution makes a new thread, and the simulator holds
on to the last one in order to wait for its end.

The specifications at the end say what the scripts ensure while the
threads move.
-/

namespace Monitor68

open Script

/-- An engine and where its threads are. -/
structure Machine (ε τ : Type) where
  engine : ε
  threads : τ

/-- An engine whose threads are described by a `τ`. -/
class Threaded (ε : Type) (τ : outParam Type) where
  /-- What an engine is when it has just been made. -/
  Made : ε → Prop
  /-- The threads of an engine that has just been made. -/
  fresh : τ
  /-- One step of one of the threads. -/
  Moves : Machine ε τ → Machine ε τ → Prop
  stepOne : Script (Machine ε τ) (Except EngineError Unit)
  run : Script (Machine ε τ) (Except EngineError Unit)
  reset : (entry stack : UInt32) → Script (Machine ε τ) (Except EngineError Unit)
  shutdown : Script (Machine ε τ) (Except EngineError Unit)

namespace Simulator

/-- Execute one instruction without looking at the power. -/
def advance (s : Simulator) : Except EngineError Simulator :=
  let next := s.registers.pc + 2
  if next.toNat < s.memory.size then
    .ok { s with registers := { s.registers with pc := next }, steps := s.steps + 1 }
  else .error (.invalidAddress next)

theorem stepOne_eq (s : Simulator) :
    s.stepOne = if s.powered then s.advance else .error .notPowered := rfl

/-- Where a thread that executes continuously is. -/
inductive RunPhase where
  /-- About to look at the running flag. -/
  | testing
  /-- About to look at the power. -/
  | powering
  /-- About to move the program counter. -/
  | advancing
  /-- About to look for a breakpoint at the address it has come to. -/
  | looking (pc : UInt32)
  /-- Out of the loop and about to clear the running flag. -/
  | clearing
  | returning
  | finished
deriving DecidableEq, Repr

/-- One step of a thread. -/
def RunPhase.advance (e : Simulator) : RunPhase → RunPhase × Simulator
  | .testing => (if e.running then .powering else .clearing, e)
  | .powering => (if e.powered then .advancing else .clearing, e)
  | .advancing =>
    match e.advance with
    | .ok e' => (.looking e'.registers.pc, e')
    | .error _ => (.clearing, e)
  | .looking pc => (if e.hitsBreakpoint pc then .clearing else .testing, e)
  | .clearing => (.returning, { e with running := false })
  | .returning => (.finished, e)
  | .finished => (.finished, e)

/-- The threads that a simulator has started so far, and the one it holds
on to. -/
structure Crew where
  phases : List RunPhase := []
  handle : Option Nat := none
deriving DecidableEq, Repr

/-- A simulator with its threads. -/
abbrev Manned := Machine Simulator Crew

namespace Manned

/-- The machine after a step of one thread. -/
def moved (m : Manned) (i : Nat) (phase : RunPhase) : Manned where
  engine := (phase.advance m.engine).2
  threads := { m.threads with phases := m.threads.phases.set i (phase.advance m.engine).1 }

/-- A thread that has not finished takes a step. -/
def Moves (m m' : Manned) : Prop :=
  ∃ i phase, m.threads.phases[i]? = some phase ∧ phase ≠ .finished ∧ m' = m.moved i phase

/-! ## The operations as scripts -/

/-- Change the simulator in one step. -/
def edit (f : Simulator → Simulator) : Script Manned Unit :=
  change fun m => { m with engine := f m.engine }

/-- Let go of the thread held and wait for its end. -/
def join : Script Manned Unit := do
  let handle ← atomically fun m =>
    (m.threads.handle, { m with threads := { m.threads with handle := none } })
  match handle with
  | none => pure ()
  | some i => await fun m => m.threads.phases[i]? = some .finished

/-- Start a thread and hold on to it. -/
def spawn : Script Manned Unit :=
  change fun m => { m with
    threads :=
      { phases := m.threads.phases ++ [.testing], handle := some m.threads.phases.length } }

/-- Execute one instruction. -/
def stepOne : Script Manned (Except EngineError Unit) := do
  let powered ← look fun m => m.engine.powered
  if powered then
    atomically fun m =>
      match m.engine.advance with
      | .ok engine => (.ok (), { m with engine })
      | .error error => (.error error, m)
  else pure (.error .notPowered)

/-- Begin to execute continuously, unless that goes on already. -/
def run : Script Manned (Except EngineError Unit) := do
  let powered ← look fun m => m.engine.powered
  if powered then
    let running ← look fun m => m.engine.running
    if running then pure (.ok ())
    else
      join
      edit fun e => { e with running := true }
      spawn
      pure (.ok ())
  else pure (.error .notPowered)

/-- Power up at an entry point. -/
def reset (entry stack : UInt32) : Script Manned (Except EngineError Unit) := do
  edit fun e => { e with running := false }
  join
  edit fun e => { e with registers := .atEntry entry stack }
  edit fun e => { e with interrupts := [] }
  edit fun e => { e with powered := true }
  pure (.ok ())

/-- Stop and power down.  The power is read and cut in one step. -/
def shutdown : Script Manned (Except EngineError Unit) := do
  let powered ← atomically fun m =>
    (m.engine.powered, { m with engine := { m.engine with powered := false } })
  if powered then
    edit fun e => { e with running := false }
    join
    pure (.ok ())
  else pure (.error .alreadyShutdown)

end Manned

instance : Threaded Simulator Crew where
  Made e := e.powered = false ∧ e.running = false
  fresh := {}
  Moves := Manned.Moves
  stepOne := Manned.stepOne
  run := Manned.run
  reset := Manned.reset
  shutdown := Manned.shutdown

namespace Manned

/-! ## What the threads leave alone -/

theorem advance_frame {e e' : Simulator} (h : e.advance = .ok e') :
    ∃ registers steps, e' = { e with registers, steps } := by
  unfold Simulator.advance at h
  simp only at h
  split at h <;> cases h
  exact ⟨_, _, rfl⟩

/-- A thread changes the registers and the count of steps, and it clears
the running flag. -/
theorem phase_frame (e : Simulator) (phase : RunPhase) :
    ∃ registers steps running, (phase.advance e).2 = { e with registers, steps, running } ∧
      (running = true → e.running = true) := by
  cases phase with
  | advancing =>
    rw [RunPhase.advance]
    cases h : e.advance with
    | error error => exact ⟨_, _, _, rfl, id⟩
    | ok e' =>
      obtain ⟨registers, steps, rfl⟩ := advance_frame h
      exact ⟨_, _, _, rfl, id⟩
  | clearing => exact ⟨_, _, false, rfl, by simp⟩
  | testing => exact ⟨_, _, _, rfl, id⟩
  | powering => exact ⟨_, _, _, rfl, id⟩
  | looking pc => exact ⟨_, _, _, rfl, id⟩
  | returning => exact ⟨_, _, _, rfl, id⟩
  | finished => exact ⟨_, _, _, rfl, id⟩

/-- A flag that a step does not set stays cleared. -/
theorem clear_of_clear {before after : Bool} (h : after = true → before = true)
    (hclear : before = false) : after = false := by
  rw [← Bool.not_eq_true] at hclear ⊢
  exact mt h hclear

/-- The threads neither switch the power nor set the running flag. -/
theorem Moves.keeps {m m' : Manned} (h : m.Moves m') :
    m'.engine.powered = m.engine.powered ∧
    (m'.engine.running = true → m.engine.running = true) := by
  obtain ⟨i, phase, -, -, rfl⟩ := h
  obtain ⟨registers, steps, running, heq, hrunning⟩ := phase_frame m.engine phase
  rw [moved, heq]
  exact ⟨rfl, hrunning⟩

/-- The power is on or off and execution has come to rest, or may go on. -/
def Condition (powered : Bool) (calm : Bool) (m : Manned) : Prop :=
  m.engine.powered = powered ∧ (calm = true → m.engine.running = false)

theorem Condition.stable (powered calm : Bool) : Stable Moves (Condition powered calm) := by
  intro m m' hm hmove
  obtain ⟨hpowered, hcalm⟩ := hm
  obtain ⟨hp, hr⟩ := hmove.keeps
  exact ⟨hp.trans hpowered, fun h => clear_of_clear hr (hcalm h)⟩

/-! ## What the operations ensure -/

/-- Steps that do not set the running flag. -/
def Calms (m m' : Manned) : Prop := m'.engine.running = true → m.engine.running = true

/-- A step to an engine at rest does not set the running flag. -/
theorem Calms.of_rest {m m' : Manned} (hrest : m'.engine.running = false) : Calms m m' := by
  intro hrunning
  rw [hrest] at hrunning
  exact absurd hrunning Bool.false_ne_true

section Specifications

variable {m : Manned} {powered calm : Bool}

theorem look_spec {α : Type} {f : Manned → α} {P : Manned → Prop} {Q : α → Manned → Prop}
    {G : Manned → Manned → Prop} (hG : ∀ m, G m m) (hP : Stable Moves P)
    (hQ : ∀ a, Stable Moves (Q a)) (hm : P m) (h : ∀ m, P m → Q (f m) m) :
    Ensures Moves G Q (look f) m :=
  .once hP hQ hm fun t ht _ => ⟨hG t, h t ht⟩

theorem edit_spec {f : Simulator → Simulator} {P Q : Manned → Prop}
    {G : Manned → Manned → Prop} (hP : Stable Moves P) (hQ : Stable Moves Q) (hm : P m)
    (h : ∀ m : Manned, P m →
      G m { m with engine := f m.engine } ∧ Q { m with engine := f m.engine }) :
    Ensures Moves G (fun _ => Q) (edit f) m :=
  .once hP (fun _ => hQ) hm fun t ht _ => h t ht

/-- To wait for a thread keeps the condition of the engine. -/
theorem join_spec (hm : Condition powered calm m) :
    Ensures Moves Calms (fun _ => Condition powered calm) join m := by
  have hstable := Condition.stable powered calm
  have htake : ∀ t : Manned, Condition powered calm t →
      Condition powered calm { t with threads := { t.threads with handle := none } } :=
    fun t ht => ht
  refine Ensures.bind (M := fun _ => Condition powered calm)
    (.once hstable (fun _ => hstable) hm fun t ht _ => ⟨id, htake t ht⟩) ?_
  intro handle t ht
  cases handle with
  | none => exact .pure hstable ht
  | some i => exact .once hstable (fun _ => hstable) ht fun u hu _ => ⟨id, hu⟩

theorem stepOne_spec (hm : Condition powered calm m) :
    Ensures Moves Calms (fun _ => Condition powered calm) stepOne m := by
  have hstable := Condition.stable powered calm
  refine Ensures.bind (M := fun _ => Condition powered calm)
    (look_spec (fun _ => id) hstable (fun _ => hstable) hm fun _ ht => ht) ?_
  intro up t ht
  split
  · refine .once hstable (fun _ => hstable) ht fun u hu _ => ?_
    cases h : u.engine.advance with
    | error error => exact ⟨id, hu⟩
    | ok engine =>
      obtain ⟨registers, steps, rfl⟩ := advance_frame h
      exact ⟨id, hu⟩
  · exact .pure hstable ht

/-- A powered engine at rest begins to execute. -/
theorem run_spec (hm : Condition true true m) :
    Ensures Moves (fun _ _ => True) (fun a m => a = .ok () ∧ Condition true false m) run m := by
  have hrest := Condition.stable true true
  have hgoing := Condition.stable true false
  refine Ensures.bind (M := fun up m => up = true ∧ Condition true true m)
    (look_spec (fun _ => trivial) hrest
      (fun _ => hrest.given _) hm fun t ht => ⟨ht.1, ht⟩) ?_
  intro up t ht
  obtain ⟨rfl, ht⟩ := ht
  rw [if_pos rfl]
  refine Ensures.bind (M := fun running m => running = false ∧ Condition true true m)
    (look_spec (fun _ => trivial) hrest
      (fun _ => hrest.given _) ht fun t ht => ⟨ht.2 rfl, ht⟩) ?_
  intro running u hu
  obtain ⟨rfl, hu⟩ := hu
  rw [if_neg Bool.false_ne_true]
  refine ((join_spec hu).mono (fun _ _ _ => trivial) fun _ _ h => h).bind fun _ v hv => ?_
  refine Ensures.bind (edit_spec hrest hgoing hv fun w hw => ⟨trivial, hw.1, by simp⟩)
    fun _ w hw => ?_
  refine Ensures.bind (M := fun _ => Condition true false)
    (.once hgoing (fun _ => hgoing) hw fun x hx _ => ⟨trivial, hx⟩) fun _ x hx => ?_
  exact .pure (hgoing.given _) ⟨rfl, hx⟩

/-- A reset always succeeds, and leaves the engine powered and at rest. -/
theorem reset_spec (m : Manned) (entry stack : UInt32) :
    Ensures Moves Calms (fun a m => a = .ok () ∧ Condition true true m)
      (reset entry stack) m := by
  have hany := Condition.stable m.engine.powered false
  have hrest := Condition.stable m.engine.powered true
  have hup := Condition.stable true true
  refine Ensures.bind (edit_spec hany hrest ⟨rfl, by simp⟩
    fun t ht => ⟨.of_rest rfl, ht.1, fun _ => rfl⟩) fun _ t ht => ?_
  refine (join_spec ht).bind fun _ u hu => ?_
  refine Ensures.bind (edit_spec hrest hrest hu fun t ht => ⟨id, ht⟩) fun _ v hv => ?_
  refine Ensures.bind (edit_spec hrest hrest hv fun t ht => ⟨id, ht⟩) fun _ w hw => ?_
  refine Ensures.bind (edit_spec hrest hup hw fun t ht => ⟨id, rfl, ht.2⟩) fun _ x hx => ?_
  exact .pure (hup.given _) ⟨rfl, hx⟩

/-- A simulator never refuses to be shut down.  In the end it is off and at
rest, if it was at rest in case it was off. -/
theorem shutdown_spec (hm : m.engine.powered = false → m.engine.running = false) :
    Ensures Moves Calms
      (fun a m => (a = .ok () ∨ a = .error .alreadyShutdown) ∧ Condition false true m)
      shutdown m := by
  have hoff := Condition.stable false false
  have hdown := Condition.stable false true
  have hpre : Stable Moves fun m : Manned =>
      m.engine.powered = false → m.engine.running = false := by
    intro s t hs hmove hpowered
    obtain ⟨hp, hr⟩ := hmove.keeps
    rw [hp] at hpowered
    exact clear_of_clear hr (hs hpowered)
  refine Ensures.bind (M := fun was m => Condition false (!was) m)
    (.once hpre (fun was => Condition.stable false (!was)) hm
      fun t ht _ => ⟨id, rfl, fun h => ht (by simpa using h)⟩) ?_
  intro was t ht
  cases was with
  | false => exact .pure (hdown.given _) ⟨.inr rfl, ht⟩
  | true =>
    rw [if_pos rfl]
    refine Ensures.bind (edit_spec hoff hdown ht fun u hu => ⟨.of_rest rfl, hu.1, fun _ => rfl⟩)
      fun _ u hu => ?_
    refine (join_spec hu).bind fun _ v hv => ?_
    exact .pure (hdown.given _) ⟨.inl rfl, hv⟩

end Specifications

end Manned

end Simulator

end Monitor68
