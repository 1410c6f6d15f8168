import Monitor68.Proofs.Threads.Engine

/-!
# The simulator taken as a whole

The operations of the simulator are functions, which do everything in one
moment.  Each of them is one of the interleavings of its script: the one in
which the threads move only when the script waits for the end of one.  A
turn of the simulator is one round of its thread.

Between two operations the threads are quiet then.  The thread of a running
simulator is at the head of its loop, and the other ones have finished.
-/

namespace Monitor68

open Script Relation

namespace Simulator

/-- The threads of a simulator that is left alone.  The last one is at the
head of its loop if the simulator runs. -/
def Crew.Quiet (c : Crew) : (running : Bool) → Prop
  | false => ∃ n, c.phases = List.replicate n .finished ∧ ∀ k, c.handle = some k → k < n
  | true => ∃ n, c.phases = List.replicate n .finished ++ [.testing] ∧ c.handle = some n

theorem Crew.quiet_empty : Crew.Quiet {} false := ⟨0, rfl, by simp⟩

namespace Manned

/-! ## The operations of the simulator -/

theorem moves_last (e : Simulator) (n : Nat) (phase : RunPhase) (handle : Option Nat)
    (h : phase ≠ .finished) :
    Moves ⟨e, { phases := List.replicate n .finished ++ [phase], handle }⟩
      ⟨(phase.advance e).2,
        { phases := List.replicate n .finished ++ [(phase.advance e).1], handle }⟩ := by
  refine ⟨n, phase, by simp, h, ?_⟩
  simp [moved]

/-- A thread that has left its loop clears the running flag and ends. -/
theorem moves_end (e : Simulator) (n : Nat) (handle : Option Nat) :
    ReflTransGen Moves ⟨e, { phases := List.replicate n .finished ++ [.clearing], handle }⟩
      ⟨{ e with running := false },
        { phases := List.replicate (n + 1) .finished, handle }⟩ := by
  rw [List.replicate_succ']
  have hclear := moves_last e n .clearing handle (by simp)
  have hreturn := moves_last { e with running := false } n .returning handle (by simp)
  exact .tail (.single hclear) hreturn

/-- A script can lead from one simulator to another.  The flags tell what the
threads are quiet for before and after. -/
def Runs {α : Type} (c : Script Manned α) (e : Simulator) (b : Bool) (a : α) (e' : Simulator)
    (b' : Bool) : Prop :=
  ∀ crew : Crew, crew.Quiet b →
    ∃ crew' : Crew, crew'.Quiet b' ∧ Leads Moves c ⟨e, crew⟩ a ⟨e', crew'⟩

section Runs

variable {α β : Type} {e e' e'' : Simulator} {b b' b'' : Bool}

theorem Runs.pure (a : α) : Runs (Pure.pure a) e b a e b :=
  fun crew hcrew => ⟨crew, hcrew, .done⟩

theorem Runs.bind {c : Script Manned α} {k : α → Script Manned β} {a : α} {x : β}
    (h : Runs c e b a e' b') (hk : Runs (k a) e' b' x e'' b'') :
    Runs (c >>= k) e b x e'' b'' := by
  intro crew hcrew
  obtain ⟨crew', hcrew', hc⟩ := h crew hcrew
  obtain ⟨crew'', hcrew'', hrest⟩ := hk crew' hcrew'
  exact ⟨crew'', hcrew'', hc.bind hrest⟩

theorem Runs.atomically {f : Manned → α × Manned} {a : α}
    (h : ∀ crew, f ⟨e, crew⟩ = (a, ⟨e', crew⟩)) : Runs (atomically f) e b a e' b := by
  intro crew hcrew
  have hstep : Leads Moves (Script.atomically f) ⟨e, crew⟩ (f ⟨e, crew⟩).1 (f ⟨e, crew⟩).2 :=
    .once rfl
  rw [h] at hstep
  exact ⟨crew, hcrew, hstep⟩

theorem Runs.look {f : Simulator → α} :
    Runs (Script.look fun m : Manned => f m.engine) e b (f e) e b :=
  .atomically fun _ => rfl

theorem Runs.edit (f : Simulator → Simulator) : Runs (edit f) e b () (f e) b :=
  .atomically fun _ => rfl

/-- To wait for a thread that was told to end lets it end. -/
theorem runs_join (hrest : e.running = false) : Runs join e b () e false := by
  intro crew hcrew
  obtain ⟨phases, handle⟩ := crew
  cases b with
  | false =>
    obtain ⟨n, hphases, hhandle⟩ := hcrew
    refine ⟨⟨phases, none⟩, ⟨n, hphases, by simp⟩, Leads.bind (.once rfl) ?_⟩
    cases handle with
    | none => exact .done
    | some k =>
      have hlt : k < n := hhandle k rfl
      have hphases' : phases = List.replicate n .finished := hphases
      refine Leads.once (decide_eq_true ?_)
      simp [hphases', hlt]
  | true =>
    obtain ⟨n, hphases, hhandle⟩ := hcrew
    obtain rfl : phases = List.replicate n .finished ++ [.testing] := hphases
    obtain rfl : handle = some n := hhandle
    -- the last thread leaves its loop while the script waits
    have hclear : ({ e with running := false } : Simulator) = e := by rw [← hrest]
    have hleave := moves_last e n .testing none (by simp)
    have hend := moves_end e n none
    simp only [RunPhase.advance, hrest, Bool.false_eq_true, if_false] at hleave
    rw [hclear] at hend
    refine ⟨⟨List.replicate (n + 1) .finished, none⟩, ⟨n + 1, rfl, by simp⟩, ?_⟩
    refine Leads.bind (.once rfl) (.moved hleave (.movedStar hend (.once ?_)))
    simp

theorem runs_spawn : Runs spawn e false () e true := by
  intro crew hcrew
  obtain ⟨phases, handle⟩ := crew
  obtain ⟨n, hphases, -⟩ := hcrew
  obtain rfl : phases = List.replicate n .finished := hphases
  refine ⟨⟨List.replicate n .finished ++ [.testing],
    some (List.replicate n RunPhase.finished).length⟩, ⟨n, rfl, ?_⟩, .once rfl⟩
  rw [List.length_replicate]

/-- What an operation on a simulator that may fail leaves. -/
def outcome (e : Simulator) : Except EngineError Simulator → Except EngineError Unit × Simulator
  | .ok e' => (.ok (), e')
  | .error error => (.error error, e)

theorem runs_stepOne (e : Simulator) :
    Runs stepOne e e.running (outcome e e.stepOne).1 (outcome e e.stepOne).2
      (outcome e e.stepOne).2.running := by
  rw [stepOne_eq]
  refine .bind .look ?_
  split
  · cases h : e.advance with
    | error error =>
      refine .atomically fun crew => ?_
      simp only [h]
      rfl
    | ok e' =>
      obtain ⟨registers, steps, rfl⟩ := advance_frame h
      refine .atomically fun crew => ?_
      simp only [h]
      rfl
  · exact .pure _

theorem runs_run (e : Simulator) :
    Runs run e e.running (outcome e e.run).1 (outcome e e.run).2
      (outcome e e.run).2.running := by
  unfold Simulator.run
  refine .bind .look ?_
  split
  · refine .bind .look ?_
    cases h : e.running with
    | true =>
      have hsame : ({ e with running := true } : Simulator) = e := by rw [← h]
      rw [if_pos rfl, outcome, hsame, h]
      exact .pure _
    | false =>
      rw [if_neg Bool.false_ne_true]
      refine .bind (runs_join h) (.bind (.edit _) (.bind runs_spawn ?_))
      exact .pure _
  · exact .pure _

theorem runs_reset (e : Simulator) (entry stack : UInt32) :
    Runs (reset entry stack) e b (.ok ()) (e.reset entry stack) false := by
  refine .bind (.edit _) (.bind (runs_join rfl) ?_)
  refine .bind (.edit _) (.bind (.edit _) (.bind (.edit _) ?_))
  exact .pure _

theorem runs_shutdown (e : Simulator) :
    Runs shutdown e e.running (outcome e e.shutdown).1 (outcome e e.shutdown).2
      (outcome e e.shutdown).2.running := by
  have hcut : Runs (atomically fun m : Manned =>
      (m.engine.powered, { m with engine := { m.engine with powered := false } }))
      e e.running e.powered { e with powered := false } e.running := .atomically fun _ => rfl
  refine .bind hcut ?_
  unfold Simulator.shutdown
  cases hpowered : e.powered with
  | false =>
    have hsame : ({ e with powered := false } : Simulator) = e := by rw [← hpowered]
    rw [if_neg Bool.false_ne_true, if_neg Bool.false_ne_true, outcome, hsame]
    exact .pure _
  | true =>
    rw [if_pos rfl, if_pos rfl]
    exact .bind (.edit _) (.bind (runs_join rfl) (.pure _))

end Runs

/-- Once the last thread is out of its loop, the threads come to rest. -/
theorem moves_rest {m : Manned} {e : Simulator} {n : Nat}
    (h : ReflTransGen Moves m
      ⟨e, { phases := List.replicate n .finished ++ [.clearing], handle := some n }⟩) :
    ∃ crew' : Crew, crew'.Quiet false ∧
      ReflTransGen Moves m ⟨{ e with running := false }, crew'⟩ := by
  refine ⟨{ phases := List.replicate (n + 1) .finished, handle := some n }, ⟨n + 1, rfl, ?_⟩,
    h.trans (moves_end e n (some n))⟩
  intro k hk
  have hlast : n = k := Option.some.inj hk
  omega

/-- The last thread, once it has executed an instruction, stops at a
breakpoint and goes on elsewhere. -/
theorem moves_looking {m : Manned} {e : Simulator} {n : Nat} (hgoing : e.running = true)
    (h : ReflTransGen Moves m
      ⟨e, { phases := List.replicate n .finished ++ [.looking e.registers.pc],
            handle := some n }⟩) :
    let e' := if e.hitsBreakpoint e.registers.pc then { e with running := false } else e
    ∃ crew' : Crew, crew'.Quiet e'.running ∧ ReflTransGen Moves m ⟨e', crew'⟩ := by
  have hlook := moves_last e n (.looking e.registers.pc) (some n) (by simp)
  simp only [RunPhase.advance] at hlook
  by_cases hhit : e.hitsBreakpoint e.registers.pc = true
  · rw [if_pos hhit] at hlook
    simp only [if_pos hhit]
    exact moves_rest (.tail h hlook)
  · rw [if_neg hhit] at hlook
    simp only [if_neg hhit]
    rw [hgoing]
    exact ⟨_, ⟨n, rfl, rfl⟩, .tail h hlook⟩

theorem moves_turn_of_running {e : Simulator} (n : Nat) (hrunning : e.running = true) :
    ∃ crew' : Crew, crew'.Quiet e.turn.running ∧
      ReflTransGen Moves
        ⟨e, { phases := List.replicate n .finished ++ [.testing], handle := some n }⟩
        ⟨e.turn, crew'⟩ := by
  have htest := moves_last e n .testing (some n) (by simp)
  have hpower := moves_last e n .powering (some n) (by simp)
  have hadvance := moves_last e n .advancing (some n) (by simp)
  simp only [RunPhase.advance, hrunning, if_true] at htest
  simp only [RunPhase.advance] at hpower hadvance
  cases hpowered : e.powered with
  | false =>
    have hturn : e.turn = { e with running := false } := by
      simp [Simulator.turn, hrunning, stepOne_eq, hpowered]
    rw [hpowered, if_neg Bool.false_ne_true] at hpower
    rw [hturn]
    exact moves_rest (.tail (.single htest) hpower)
  | true =>
    rw [hpowered, if_pos rfl] at hpower
    have harrive := ReflTransGen.tail (.single htest) hpower
    cases hstep : e.advance with
    | error error =>
      have hturn : e.turn = { e with running := false } := by
        simp [Simulator.turn, hrunning, stepOne_eq, hpowered, hstep]
      rw [hstep] at hadvance
      rw [hturn]
      exact moves_rest (.tail harrive hadvance)
    | ok t =>
      have hturn : e.turn =
          if t.hitsBreakpoint t.registers.pc then { t with running := false } else t := by
        simp [Simulator.turn, hrunning, stepOne_eq, hpowered, hstep]
      have hgoing : t.running = true := by
        obtain ⟨registers, steps, rfl⟩ := advance_frame hstep
        exact hrunning
      rw [hstep] at hadvance
      rw [hturn]
      exact moves_looking hgoing (.tail harrive hadvance)

/-- A thread that goes round its loop once does what a turn does. -/
theorem moves_turn (e : Simulator) (crew : Crew) (hcrew : crew.Quiet e.running) :
    ∃ crew' : Crew, crew'.Quiet e.turn.running ∧
      ReflTransGen Moves ⟨e, crew⟩ ⟨e.turn, crew'⟩ := by
  cases hrunning : e.running with
  | false =>
    have hturn : e.turn = e := by simp [Simulator.turn, hrunning]
    rw [hturn, hrunning]
    exact ⟨crew, hrunning ▸ hcrew, .refl⟩
  | true =>
    rw [hrunning] at hcrew
    obtain ⟨phases, handle⟩ := crew
    obtain ⟨n, hphases, hhandle⟩ := hcrew
    obtain rfl : phases = List.replicate n .finished ++ [.testing] := hphases
    obtain rfl : handle = some n := hhandle
    exact moves_turn_of_running n hrunning

end Manned

end Simulator

end Monitor68
