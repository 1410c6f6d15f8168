import Monitor68.Proofs.Threads.Client
import Monitor68.Proofs.Threads.Guarded

/-!
# A simulator on the bench

One thread commands a simulator: it resets it, lets it execute one
instruction or go on continuously, and shuts it down.  Each continuous
execution has a thread of its own, which goes round a loop: it looks at the
running flag, executes one instruction, and looks for a breakpoint where
it has come to.  When it leaves the loop it clears the running flag.

A `Bench` has all the threads that were ever started.  The commander holds
on to the newest of them, and before it starts another or resets the
simulator it waits for the end of the one it holds.  Meanwhile the world
outside may write to the memory, set breakpoints and raise interrupts.

When nobody else moves, the requests do what the simulator says of them
(`reset_leads`, `run_leads`, `shutdown_leads`), and once round the loop is
one turn of continuous execution (`Runner.goes_turn`).

`Orderly` is what all of them keep: the earlier threads have come to an
end, and the newest keeps its part of the contract about the registers.
-/

namespace Monitor68.Simulator

open Script Relation

/-- Where a thread that executes continuously is. -/
inductive Runner where
  /-- About to look at the running flag. -/
  | testing
  /-- Executing an instruction. -/
  | stepping (rest : Script Cells (Except EngineError UInt32))
  /-- About to look for a breakpoint at the address it has come to. -/
  | looking (pc : UInt32)
  /-- Out of the loop and about to clear the running flag. -/
  | clearing
  | returning
  | finished

/-- Whether a thread is in its loop. -/
def Runner.inLoop : Runner → Bool
  | .testing => true
  | .stepping _ => true
  | .looking _ => true
  | _ => false

def Runner.isFinished : Runner → Bool
  | .finished => true
  | _ => false

/-- A simulator with the threads that execute it. -/
structure Bench where
  cells : Cells
  /-- The thread started last, or before the first one a thread that has
  finished. -/
  newest : Runner := .finished
  earlier : List Runner := []
  /-- Whether the commander holds on to the newest thread. -/
  held : Bool := false

/-- Who moves besides the commander. -/
inductive Mover where
  | runner
  | world
deriving DecidableEq, Repr

/-- One step of a thread. -/
inductive Runner.Step (c : Cells) : Runner → Cells → Runner → Prop where
  | test :
      Step c .testing c (if c.engine.running then .stepping (Cells.step .runner) else .clearing)
  | act {ready : Cells → Bool} {effect : Cells → Cells}
      {next : Cells → Script Cells (Except EngineError UInt32)} (hready : ready c = true) :
      Step c (.stepping (.act ready effect next)) (effect c) (.stepping (next c))
  | stepped {pc : UInt32} : Step c (.stepping (.done (.ok pc))) c (.looking pc)
  | failed {error : EngineError} : Step c (.stepping (.done (.error error))) c .clearing
  | look {pc : UInt32} :
      Step c (.looking pc) c (if c.engine.hitsBreakpoint pc then .clearing else .testing)
  | clear : Step c .clearing { c with engine := { c.engine with running := false } } .returning
  | finish : Step c .returning c .finished

/-- Only a thread that has not come to its end moves. -/
theorem Runner.Step.not_finished {c c' : Cells} {w w' : Runner} (h : w.Step c c' w') :
    w.isFinished = false := by
  cases h <;> rfl

/-- What a thread does when nobody else moves. -/
def Runner.Goes : Cells × Runner → Cells × Runner → Prop :=
  ReflTransGen fun p q => p.2.Step p.1 q.1 q.2

theorem Runner.goes_of_leads {c c' : Cells} {script : Script Cells (Except EngineError UInt32)}
    {answer : Except EngineError UInt32} (h : Leads (fun _ _ => False) script c answer c') :
    Goes (c, .stepping script) (c', .stepping (.done answer)) := by
  induction h with
  | done => exact .refl
  | moved hmove => exact hmove.elim
  | acted hready _ ih => exact .head (.act hready) ih

/-- Out of the loop the running flag is cleared. -/
theorem Runner.goes_clearing (c : Cells) :
    Goes (c, .clearing) ({ c with engine := { c.engine with running := false } }, .returning) :=
  .single .clear

/-- To execute an instruction does not touch the running flag. -/
theorem running_stepOne {s t : Simulator} (h : s.stepOne = .ok t) : t.running = s.running := by
  rw [stepOne_eq] at h
  split at h
  · obtain ⟨registers, steps, rfl⟩ := Manned.advance_frame h
    rfl
  · cases h

/-- Once round the loop is one turn of continuous execution. -/
theorem Runner.goes_turn {c : Cells} (hlock : c.lock = none)
    (hrunning : c.engine.running = true) :
    Goes (c, .testing) ({ c with engine := c.engine.turn },
      if c.engine.turn.running then .testing else .returning) := by
  have htest : Runner.testing.Step c c (.stepping (Cells.step .runner)) := by
    have hstep := Step.test (c := c)
    rwa [if_pos hrunning] at hstep
  have hscript := goes_of_leads (Cells.step_leads .runner hlock)
  refine .head htest (hscript.trans ?_)
  cases hone : c.engine.stepOne with
  | error error =>
    have hturn : c.engine.turn = { c.engine with running := false } := by
      simp [turn, hrunning, hone]
    rw [hturn]
    exact .head .failed (goes_clearing c)
  | ok e =>
    have hlook : (looking e.registers.pc).Step { c with engine := e } { c with engine := e }
        (if e.hitsBreakpoint e.registers.pc then .clearing else .testing) := .look
    refine .head (b := ({ c with engine := e }, .looking e.registers.pc)) .stepped ?_
    by_cases hstop : e.hitsBreakpoint e.registers.pc = true
    · have hturn : c.engine.turn = { e with running := false } := by
        simp [turn, hrunning, hone, hstop]
      rw [if_pos hstop] at hlook
      rw [hturn]
      exact .head hlook (goes_clearing { c with engine := e })
    · have hturn : c.engine.turn = e := by simp [turn, hrunning, hone, hstop]
      have hrunning' : e.running = true := (running_stepOne hone).trans hrunning
      rw [if_neg hstop] at hlook
      rw [hturn, if_pos hrunning']
      exact .single hlook

namespace Bench

/-- A simulator that has never executed continuously. -/
def of (s : Simulator) : Bench := { cells := .of s }

def threads (b : Bench) : List Runner := b.newest :: b.earlier

/-- Whether the newest thread has come to its end. -/
def quiet (b : Bench) : Bool := b.newest.isFinished

/-- What happens besides the commander. -/
inductive Moves : Mover → Bench → Bench → Prop where
  | newest {b : Bench} {c : Cells} {w : Runner} (h : b.newest.Step b.cells c w) :
      Moves .runner b { b with cells := c, newest := w }
  | earlier {b : Bench} {c : Cells} {w w' : Runner} {front back : List Runner}
      (h : b.earlier = front ++ w :: back) (hstep : w.Step b.cells c w') :
      Moves .runner b { b with cells := c, earlier := front ++ w' :: back }
  | world {b : Bench} {memory : Memory} {slots : Vector (Option Stop) 16}
      {interrupts : List UInt8} (hsize : memory.size = b.cells.engine.memory.size) :
      Moves .world b
        { b with cells := { b.cells with engine := { b.cells.engine with
          memory, slots, interrupts } } }

/-! ## The commander -/

/-- Change the simulator in one step. -/
def edit (f : Simulator → Simulator) : Script Bench Unit :=
  change fun b => { b with cells := { b.cells with engine := f b.cells.engine } }

/-- A script for the cells. -/
def onCells {α : Type} (c : Script Cells α) : Script Bench α :=
  c.within Bench.cells fun cells b => { b with cells }

/-- Wait for the end of the newest thread if it was held. -/
def await (held : Bool) : Script Bench Unit :=
  if held then Script.await quiet else pure ()

/-- Let go of the thread held and wait for its end. -/
def join : Script Bench Unit := do
  let held ← atomically fun b => (b.held, { b with held := false })
  await held

def stepOne : Script Bench (Except EngineError Unit) := do
  let answer ← onCells (Cells.step .commander)
  pure (answer.map fun _ => ())

/-- Start a thread. -/
def spawn (b : Bench) : Bench := { b with newest := .testing, earlier := b.newest :: b.earlier }

/-- Begin to execute continuously, unless that goes on already. -/
def run : Script Bench (Except EngineError Unit) := do
  let powered ← look fun b => b.cells.engine.powered
  if powered then
    let running ← look fun b => b.cells.engine.running
    if running then pure (.ok ())
    else
      join
      edit fun e => { e with running := true }
      change spawn
      change fun b => { b with held := true }
      pure (.ok ())
  else pure (.error .notPowered)

/-- Place the registers, and note down when that was. -/
def place (registers : Registers) (b : Bench) : Bench :=
  { b with cells := { b.cells with
      engine := { b.cells.engine with registers }
      placed := registers
      since := b.cells.engine.steps } }

/-- Power up at an entry point. -/
def reset (entry stack : UInt32) : Script Bench (Except EngineError Unit) := do
  edit fun e => { e with running := false }
  join
  onCells (Cells.acquire .commander)
  change (place (.atEntry entry stack))
  onCells (change (Cells.setLock none))
  edit fun e => { e with interrupts := [] }
  edit fun e => { e with powered := true }
  pure (.ok ())

/-- Stop and power down.  The power is read and cut in one step. -/
def shutdown : Script Bench (Except EngineError Unit) := do
  let powered ← atomically fun b =>
    (b.cells.engine.powered,
      { b with cells := { b.cells with engine := { b.cells.engine with powered := false } } })
  if powered then
    edit fun e => { e with running := false }
    join
    pure (.ok ())
  else pure (.error .alreadyShutdown)

/-- What the commander can ask for. -/
inductive Request where
  | stepOne
  | run
  | reset (entry stack : UInt32)
  | shutdown
deriving DecidableEq, Repr

def Request.script : Request → Script Bench (Except EngineError Unit)
  | .stepOne => Bench.stepOne
  | .run => Bench.run
  | .reset entry stack => Bench.reset entry stack
  | .shutdown => Bench.shutdown

/-- What the commander can ask for, and what happens besides. -/
def service : Service Bench Request Unit (Except EngineError Unit) Mover where
  script := Request.script
  note _ := ()
  Moves := Moves

/-! ## Nobody else moves -/

section Alone

variable {R : Bench → Bench → Prop} {b : Bench}

theorem join_leads (hquiet : b.quiet = true) : Leads R join b () { b with held := false } := by
  refine .bind (.once rfl) ?_
  cases hheld : b.held with
  | false => exact .done
  | true => exact .once hquiet

theorem reset_leads (entry stack : UInt32) (hlock : b.cells.lock = none)
    (hquiet : b.quiet = true) :
    Leads R (reset entry stack) b (.ok ()) { b with
      cells := { b.cells with
        engine := b.cells.engine.reset entry stack
        placed := .atEntry entry stack
        since := b.cells.engine.steps }
      held := false } := by
  obtain ⟨⟨e, lock, placed, since⟩, newest, earlier, held⟩ := b
  obtain rfl : lock = none := hlock
  refine .bind (.once rfl) (.bind (join_leads hquiet) ?_)
  exact .bind (.acted rfl .done) (.bind (.once rfl) (.bind (.acted rfl .done) (.bind (.once rfl)
    (.bind (.once rfl) .done))))

/-- A simulator without power goes on holding its thread. -/
theorem shutdown_leads (hquiet : b.quiet = true) :
    Leads R shutdown b (b.cells.engine.shutdown.map fun _ => ()) { b with
      cells := { b.cells with engine := b.cells.engine.shutdown.toOption.getD b.cells.engine }
      held := b.held && !b.cells.engine.powered } := by
  obtain ⟨⟨⟨_, _, _, _, powered, _, _⟩, lock, placed, since⟩, newest, earlier, held⟩ := b
  refine .bind (.once rfl) ?_
  cases powered with
  | false =>
    simp only [Bool.not_false, Bool.and_true]
    exact .done
  | true =>
    simp only [Bool.not_true, Bool.and_false]
    exact .bind (.once rfl) (.bind (join_leads hquiet) .done)

/-- The answer and the running flag.  A thread is started only for a simulator
that does not run. -/
theorem run_leads (hquiet : b.quiet = true) (hrunning : b.cells.engine.running = false) :
    Leads R run b (b.cells.engine.run.map fun _ => ()) { b with
      cells := { b.cells with engine := b.cells.engine.run.toOption.getD b.cells.engine }
      newest := if b.cells.engine.powered then .testing else b.newest
      earlier := if b.cells.engine.powered then b.newest :: b.earlier else b.earlier
      held := b.held || b.cells.engine.powered } := by
  obtain ⟨⟨⟨_, _, _, _, powered, running, _⟩, lock, placed, since⟩, newest, earlier, held⟩ := b
  obtain rfl : running = false := hrunning
  refine .bind (.once rfl) ?_
  cases powered with
  | false =>
    simp only [Bool.or_false]
    exact .done
  | true =>
    simp only [Bool.or_true]
    refine .bind (.once rfl) (.bind (join_leads hquiet) ?_)
    exact .bind (.once rfl) (.bind (.once rfl) (.bind (.once rfl) .done))

end Alone

/-! ## The order on the bench -/

end Bench

/-- A thread keeps its part of the contract about the registers. -/
def Runner.Sound (c : Cells) : Runner → Prop
  | .stepping rest => Ensures (Cells.Beside .runner) (Cells.Steps .runner)
      (fun _ c => (Cells.without .runner).holds c) rest c
  | _ => c.lock ≠ some .runner

/-- What is not the thread's own doing does not matter to it. -/
theorem Runner.Sound.beside {w : Runner} {c c' : Cells} (h : w.Sound c)
    (hmove : Cells.Beside .runner c c') : w.Sound c' := by
  cases w with
  | stepping rest => exact h.moved hmove
  | _ => exact hmove.others h

namespace Bench

/-- What holds at every moment. -/
structure Orderly (b : Bench) : Prop where
  near : b.cells.Near
  earlier : ∀ w ∈ b.earlier, w = .finished
  newest : b.newest.Sound b.cells

/-- What the commander may count on between two of its steps.  When the newest
thread has come to an end, nothing is executed. -/
structure Around (b b' : Bench) : Prop where
  beside : Cells.Beside .commander b.cells b'.cells
  placed : b'.cells.placed = b.cells.placed
  since : b'.cells.since = b.cells.since
  held : b'.held = b.held
  quiet : b.quiet = true → b'.quiet = true ∧
    b'.cells.engine.registers = b.cells.engine.registers ∧
    b'.cells.engine.steps = b.cells.engine.steps

end Bench

/-- A step of a thread among the steps of the commander. -/
theorem Runner.Sound.step {c c' : Cells} {w w' : Runner} (h : w.Sound c) (hnear : c.Near)
    (hstep : w.Step c c' w') :
    w'.Sound c' ∧ Cells.Beside .commander c c' ∧ c'.placed = c.placed ∧
      c'.since = c.since := by
  have hstay : Cells.Beside .commander c c := .of_eq rfl rfl rfl rfl rfl
  cases hstep with
  | test =>
    refine ⟨?_, hstay, rfl, rfl⟩
    split
    · exact Cells.step_upholds c ⟨hnear, h⟩
    · exact h
  | act hready =>
    obtain ⟨hyields, hrest⟩ := h c .refl hready
    exact ⟨hrest, hyields.beside _ (by simp), hyields.placed, hyields.since⟩
  | stepped => exact ⟨(h c .refl).2, hstay, rfl, rfl⟩
  | failed => exact ⟨(h c .refl).2, hstay, rfl, rfl⟩
  | look =>
    refine ⟨?_, hstay, rfl, rfl⟩
    split
    · exact h
    · exact h
  | clear => exact ⟨h, .of_eq rfl rfl rfl rfl rfl, rfl, rfl⟩
  | finish => exact ⟨h, hstay, rfl, rfl⟩

namespace Bench

/-- What happens besides the commander keeps the order, and a thread moves only
if it has not come to its end. -/
theorem Orderly.moves {b b' : Bench} {mover : Mover} (h : b.Orderly) (hmove : Moves mover b b') :
    b'.Orderly ∧ Around b b' ∧ (mover = .runner → b.quiet = false) := by
  cases hmove with
  | newest hstep =>
    obtain ⟨hsound, hbeside, hplaced, hsince⟩ := h.newest.step h.near hstep
    have hwork : b.quiet = false := hstep.not_finished
    refine ⟨⟨hbeside.near h.near, h.earlier, hsound⟩,
      ⟨hbeside, hplaced, hsince, rfl, fun hquiet => ?_⟩, fun _ => hwork⟩
    simp [hwork] at hquiet
  | @earlier _ c w w' front back hw hstep =>
    have hfinished : w = .finished := h.earlier w (by simp [hw])
    subst hfinished
    cases hstep
  | @world _ memory slots interrupts hsize =>
    have hsame (who : Party) : Cells.Beside who b.cells { b.cells with
        engine := { b.cells.engine with memory, slots, interrupts } } :=
      .of_eq rfl rfl rfl rfl rfl
    exact ⟨⟨(hsame .runner).near h.near, h.earlier, h.newest.beside (hsame .runner)⟩,
      ⟨hsame .commander, rfl, rfl, rfl, fun hquiet => ⟨hquiet, rfl, rfl⟩⟩, by simp⟩

end Bench

end Monitor68.Simulator
