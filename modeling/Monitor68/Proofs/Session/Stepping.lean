import Monitor68.Proofs.Session.Request
import Monitor68.Proofs.Target.Continuous

/-!
# Single steps in a session

To step is all or nothing.  The session of a simulator at rest steps if the
next address is in memory: the simulator moves on, the state and the values
of the watched variables follow, and the answer is what a look at the
session shows from then on.  Three things can be in the way, and are asked
for in this order: the simulator is off, it runs, or memory ends.  Then the
session says so and is as before.
-/

namespace Monitor68

/-- To look at variables that were just refreshed shows the values they keep. -/
theorem WatchList.evaluate_refresh {ε : Type} [Engine ε] (w : WatchList) (e : ε) :
    (w.refresh e).evaluate e = w.evaluate e := by
  rw [evaluate, refresh, evaluate, List.map_map]
  rfl

namespace Session

variable {s : Session Simulator}

/-- A session whose simulator is up and at rest. -/
structure Ready (s : Session Simulator) : Prop where
  powered : s.engine.powered = true
  idle : s.engine.running = false

/-- The session after a step within memory. -/
def afterStep (s : Session Simulator) : Session Simulator :=
  (({ s with engine := s.engine.stepped } : Session Simulator).enter .stepping).refreshWatches

/-- The simulator, the state, the values of the watched variables and the events
are all that a step changes. -/
theorem afterStep_frame (s : Session Simulator) :
    s.afterStep = { s with
      engine := s.engine.stepped
      state := .stepping
      watches := s.watches.refresh s.engine.stepped
      events := s.events ++ if s.state = .stepping then [] else [.stateChanged .stepping] } := by
  by_cases hstate : s.state = .stepping
  · rw [afterStep, enter, if_pos hstate, if_pos hstate, List.append_nil]
    rw [← hstate]
    rfl
  · rw [afterStep, enter, if_neg hstate, if_neg hstate]
    rfl

theorem engine_afterStep : s.afterStep.engine = s.engine.stepped := by rw [afterStep_frame]

theorem listing_afterStep : s.afterStep.listing = s.listing := by rw [afterStep_frame]

/-- What is shown after a step are the values that the variables keep. -/
theorem view_afterStep :
    s.afterStep.view =
      .of s.engine.stepped s.listing (s.watches.refresh s.engine.stepped).watches := by
  rw [afterStep_frame, view]
  exact congrArg (View.of _ _) (s.watches.evaluate_refresh s.engine.stepped)

/-- A session at rest steps as its simulator does. -/
theorem step_of_ready (h : Ready s) :
    s.step =
      match s.engine.stepOne with
      | .error error => s.fail (.engine error)
      | .ok engine =>
        let s := (({ s with engine } : Session Simulator).enter .stepping).refreshWatches
        (.ok (.of s.engine s.listing s.watches.watches), s) := by
  have hpowered : Engine.powered s.engine = true := h.powered
  have hidle : Engine.running s.engine = false := h.idle
  have hone : Engine.stepOne s.engine = s.engine.stepOne := rfl
  rw [step, if_pos hpowered, hidle, Control.step, if_pos hpowered, hone]
  cases s.engine.stepOne <;> rfl

/-- A step within memory moves the program counter on.  Breakpoints have no
part in it. -/
theorem step_within (h : Ready s)
    (hwithin : (s.engine.registers.pc + 2).toNat < s.engine.memory.size) :
    s.step = (.ok s.afterStep.view, s.afterStep) := by
  rw [step_of_ready h, Simulator.stepOne_of_powered h.powered, if_pos hwithin, view_afterStep]
  show (Except.ok (View.of s.afterStep.engine s.afterStep.listing s.afterStep.watches.watches),
    s.afterStep) = _
  rw [afterStep_frame]

theorem Ready.afterStep (h : Ready s) : Ready s.afterStep :=
  ⟨by rw [engine_afterStep]; exact h.powered, by rw [engine_afterStep]; exact h.idle⟩

/-- A step beyond memory fails. -/
theorem step_beyond (h : Ready s)
    (hbeyond : ¬ (s.engine.registers.pc + 2).toNat < s.engine.memory.size) :
    s.step = s.fail (.engine (.invalidAddress (s.engine.registers.pc + 2))) := by
  rw [step_of_ready h, Simulator.stepOne_of_powered h.powered, if_neg hbeyond]

theorem step_off (h : ¬ s.engine.powered = true) : s.step = s.fail .notPowered :=
  if_neg h

theorem step_running (hpowered : s.engine.powered = true) (h : s.engine.running = true) :
    s.step = s.fail .running := by
  have hup : Engine.powered s.engine = true := hpowered
  have hrunning : Engine.running s.engine = true := h
  rw [step, if_pos hup, if_pos hrunning]

/-- A step fails if the simulator is off, else if it runs, else if the next
address is outside memory; and a session that fails has said so and is as
before.  Otherwise the program counter is at the next address, one more step
is counted, every watched variable keeps what memory gives it now, and the
answer is what a look at the session shows. -/
theorem step_is_all_or_nothing (s : Session Simulator) :
    let next := s.engine.registers.pc + 2
    (s.engine.powered = false → s.step.1 = .error .notPowered) ∧
    (s.engine.powered = true → s.engine.running = true → s.step.1 = .error .running) ∧
    (s.engine.powered = true → s.engine.running = false → s.engine.memory.size ≤ next.toNat →
      s.step.1 = .error (.engine (.invalidAddress next))) ∧
    (∀ error, s.step.1 = .error error →
      s.step.2 = { s with events := s.events ++ [.error error.message] }) ∧
    (s.engine.powered = true → s.engine.running = false → next.toNat < s.engine.memory.size →
      s.step.1 = .ok s.step.2.view ∧
      s.step.2 = { s with
        engine := { s.engine with
          registers := { s.engine.registers with pc := next }
          steps := s.engine.steps + 1 }
        state := .stepping
        watches := { s.watches with
          watches := s.watches.watches.map fun v =>
            { v with value := Decode.shown s.step.2.engine v.address v.encoding } }
        events := s.events ++ if s.state = .stepping then [] else [.stateChanged .stepping] }) := by
  intro next
  refine ⟨?_, ?_, ?_, ?_, ?_⟩
  · intro hoff
    rw [step_off (Bool.eq_false_iff.1 hoff)]
    rfl
  · intro hpowered hrunning
    rw [step_running hpowered hrunning]
    rfl
  · intro hpowered hidle hbeyond
    rw [step_beyond ⟨hpowered, hidle⟩ (Nat.not_lt.2 hbeyond)]
    rfl
  · intro error herror
    rcases s.step_cases with ⟨reason, hfail⟩ | ⟨engine, hpowered, hidle, hone, -⟩
    · rw [hfail] at herror ⊢
      obtain rfl : reason = error := Except.error.inj herror
      rfl
    · obtain ⟨-, hwithin, -⟩ := Simulator.stepOne_eq_ok_iff.1 hone
      rw [step_within ⟨hpowered, hidle⟩ hwithin] at herror
      cases herror
  · intro hpowered hidle hwithin
    rw [step_within ⟨hpowered, hidle⟩ hwithin]
    refine ⟨rfl, ?_⟩
    rw [engine_afterStep]
    exact s.afterStep_frame

/-- A session two steps below the end of memory that watches a byte. -/
def nearEnd : Session Simulator where
  settings := {}
  fresh := .blank 8
  engine := (Simulator.blank 8).reset 4 8
  state := .loaded
  watches := { watches := [{ id := 0, address := 7, name := "last", encoding := .unsignedByte }] }

/-- The first step succeeds and the second fails. -/
theorem step_nearEnd :
    nearEnd.step.1 = .ok nearEnd.step.2.view ∧
    nearEnd.step.2.watches.watches.map (·.value) = ["0"] ∧
    nearEnd.step.2.step.1 = .error (.engine (.invalidAddress 8)) ∧
    nearEnd.step.2.step.2.engine = nearEnd.step.2.engine := by
  obtain ⟨-, -, -, -, hwithin⟩ := step_is_all_or_nothing nearEnd
  obtain ⟨hview, hnext⟩ := hwithin rfl rfl (by decide)
  obtain ⟨-, -, hbeyond, hfailed, -⟩ := step_is_all_or_nothing nearEnd.step.2
  have hengine : nearEnd.step.2.engine = { (Simulator.blank 8).reset 4 8 with
      registers := { Registers.atEntry 4 8 with pc := 6 }
      steps := 1 } := congrArg Session.engine hnext
  have herror : nearEnd.step.2.step.1 = .error (.engine (.invalidAddress 8)) := by
    rw [hengine] at hbeyond
    exact hbeyond rfl rfl (by decide)
  refine ⟨hview, ?_, herror, by rw [hfailed _ herror]⟩
  rw [hnext, hengine]
  decide +kernel

end Session

end Monitor68
