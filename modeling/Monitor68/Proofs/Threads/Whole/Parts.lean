import Monitor68.Proofs.Threads.Whole.Engine
import Monitor68.Proofs.Threads.Session

/-!
# Parts of operations taken as a whole

`Runs` says that a script can lead from one session to another with quiet
threads before and after.  The threads are quiet if those of the simulator
are, and if the polling thread has finished, waits, or has not yet begun.
The lemmas here are about the parts that operations are made of.
-/

namespace Monitor68

open Script Relation

/-- A task that has finished, or that goes on and was told nothing. -/
def RepeatingTask.Quiet (t : RepeatingTask) : Prop :=
  t.phase = .finished ∨
    (t.phase = .testing ∨ t.phase = .waiting) ∧ t.held = true ∧ t.cancelled = false ∧
      t.signalled = false

namespace World

open Session

/-- The threads are quiet, and the session is as given. -/
structure Shows (w : Scene) (s : Session Simulator) : Prop where
  snapshot : w.snapshot = s
  crew : w.threads.Quiet w.session.engine.running
  task : w.task.Quiet

theorem Shows.engine {w : Scene} {s : Session Simulator} (h : w.Shows s) :
    w.session.engine = s.engine := by
  rw [← h.snapshot]
  rfl

/-- Another engine in the same condition. -/
theorem Shows.withEngine {w : Scene} {s : Session Simulator} (h : w.Shows s) {e : Simulator}
    (hrunning : e.running = s.engine.running) :
    Shows { w with session := { w.session with engine := e } } { s with engine := e } := by
  refine ⟨?_, ?_, h.task⟩
  · rw [← h.snapshot]
    rfl
  · show w.threads.Quiet e.running
    rw [hrunning, ← h.engine]
    exact h.crew

/-- A script can lead from one session to another. -/
def Runs {α : Type} (c : Script Scene α) (s : Session Simulator) (a : α)
    (s' : Session Simulator) : Prop :=
  ∀ w : Scene, w.Shows s → ∃ w' : Scene, w'.Shows s' ∧ Leads World.Moves c w a w'

section Runs

variable {α β : Type} {s s' s'' : Session Simulator}

theorem Runs.pure (a : α) : Runs (Pure.pure a) s a s :=
  fun w hw => ⟨w, hw, .done⟩

theorem Runs.bind {c : Script Scene α} {k : α → Script Scene β} {a : α} {b : β}
    (h : Runs c s a s') (hk : Runs (k a) s' b s'') : Runs (c >>= k) s b s'' := by
  intro w hw
  obtain ⟨w', hw', hc⟩ := h w hw
  obtain ⟨w'', hw'', hrest⟩ := hk w' hw'
  exact ⟨w'', hw'', hc.bind hrest⟩

theorem Runs.once {ready : Scene → Bool} {f : Scene → α × Scene} {a : α}
    (h : ∀ w : Scene, w.Shows s → ready w = true ∧ (f w).1 = a ∧ (f w).2.Shows s') :
    Runs (Script.once ready f) s a s' := by
  intro w hw
  obtain ⟨hready, ha, hw'⟩ := h w hw
  exact ⟨(f w).2, hw', ha ▸ .once hready⟩

theorem Runs.look {f : Scene → α} {g : Session Simulator → α} (h : ∀ w, f w = g w.snapshot) :
    Runs (Script.look f) s (g s) s :=
  .once fun w hw => ⟨rfl, (h w).trans (congrArg g hw.snapshot), hw⟩

/-- A change that does not depend on the polling and leaves the engine in its
condition. -/
theorem Runs.edit {f : Session Simulator → Session Simulator}
    (hpolling : ∀ s polling, f { s with polling } = { f s with polling })
    (hrunning : ∀ s, (f s).engine.running = s.engine.running) : Runs (edit f) s () (f s) := by
  refine .once fun w hw => ⟨rfl, rfl, ?_, ?_, hw.task⟩
  · have hsnapshot : f w.snapshot = { f w.session with polling := w.task.isActive } :=
      hpolling _ _
    rw [← hw.snapshot, hsnapshot]
    rfl
  · show w.threads.Quiet (f w.session).engine.running
    rw [hrunning]
    exact hw.crew

theorem runs_fail (error : SessionError) :
    Runs (World.fail error : Script Scene (Except SessionError α)) s (.error error)
      (s.fail error : Result Simulator α).2 :=
  .bind (.edit (fun _ _ => rfl) fun _ => rfl) (.pure _)

theorem not_locked {w : Scene} (hw : w.Shows s) : w.locked = false := by
  have hphase : w.task.phase ≠ .ticking := by
    rcases hw.task with h | ⟨h | h, -⟩ <;> simp [h]
  simp [locked, hphase]

theorem runs_readState : Runs (readState : Script Scene _) s s.state s :=
  .once fun w hw => ⟨by simp [not_locked hw], by rw [← hw.snapshot]; rfl, hw⟩

theorem runs_enter (state : SessionState) :
    Runs (enter state : Script Scene Unit) s () (s.enter state) := by
  have hreplace : Runs (Script.once (fun w : Scene => !w.locked) fun w =>
      (w.session.state, { w with session := { w.session with state } })) s s.state
      { s with state } := by
    refine .once fun w hw => ⟨by simp [not_locked hw], ?_, ?_, hw.crew, hw.task⟩
    · rw [← hw.snapshot]
      rfl
    · rw [← hw.snapshot]
      rfl
  refine .bind hreplace ?_
  unfold Session.enter
  by_cases h : s.state = state
  · have hsame : ({ s with state } : Session Simulator) = s := by rw [← h]
    rw [if_pos h, if_pos h, hsame]
    exact .pure ()
  · rw [if_neg h, if_neg h]
    exact .edit (fun _ _ => rfl) fun _ => rfl

/-- The polling thread ends when it is told to. -/
theorem moves_stopped {w : Scene} (hphase : w.task.phase ≠ .ticking)
    (hcancelled : w.task.cancelled = true) (hsignalled : w.task.signalled = true) :
    ∃ place, ReflTransGen World.Moves w
      { w with task := { w.task with phase := .finished }, place } := by
  cases h : w.task.phase with
  | ticking => exact absurd h hphase
  | finished => exact ⟨w.place, by rw [← h]⟩
  | testing =>
    have hlive : w.task.phase ≠ .finished := by simp [h]
    have hpoll : w.poll =
        { w with task := { w.task with phase := .finished }, place := .refreshing } := by
      simp [poll, h, RepeatingTask.test, hcancelled]
    exact ⟨.refreshing, .single (hpoll ▸ .poll hlive)⟩
  | waiting =>
    have hlive : w.task.phase ≠ .finished := by simp [h]
    have hpoll : w.poll = { w with task := { w.task with phase := .finished } } := by
      simp [poll, h, RepeatingTask.wake, hsignalled]
    exact ⟨w.place, .single (hpoll ▸ .poll hlive)⟩

theorem runs_stopPolling :
    Runs (stopPolling : Script Scene Unit) s () { s with polling := false } := by
  intro w hw
  have hphase : w.task.phase ≠ .ticking := by
    rcases hw.task with h | ⟨h | h, -⟩ <;> simp [h]
  cases hheld : w.task.held with
  | false =>
    have hactive : w.task.isActive = false := by simp [RepeatingTask.isActive, hheld]
    refine ⟨w, ⟨?_, hw.crew, hw.task⟩, Leads.bind (.once rfl) ?_⟩
    · rw [← hw.snapshot, snapshot, hactive]
    · rw [if_neg (by simp [hheld])]
      exact .done
  | true =>
    let told : Scene := { w with task := w.task.cancel.stop }
    have hsignalled : told.task.signalled = true := by
      simp [told, RepeatingTask.stop, RepeatingTask.cancel, hheld]
    obtain ⟨place, hmoves⟩ := moves_stopped (w := told) hphase rfl hsignalled
    let w' : Scene := { told with task := { told.task with phase := .finished }, place }
    have hshows : w'.Shows { s with polling := false } := by
      refine ⟨?_, hw.crew, .inl rfl⟩
      rw [← hw.snapshot]
      rfl
    refine ⟨w', hshows, Leads.bind (.once rfl) ?_⟩
    rw [if_pos (by simp [hheld])]
    exact .bind (.once rfl) (.bind (.once rfl) (.movedStar hmoves (.once rfl)))

/-- A script for the engine that leads from one simulator to another. -/
theorem runs_onMachine {c : Script Simulator.Manned α} {a : α} {e' : Simulator}
    (h : Simulator.Manned.Runs c s.engine s.engine.running a e' e'.running) :
    Runs (onMachine c) s a { s with engine := e' } := by
  intro w hw
  have hengine := hw.engine
  have hcrew := hw.crew
  rw [hengine] at hcrew
  obtain ⟨crew', hcrew', hc⟩ := h w.threads hcrew
  have hmoves : ∀ (w : Scene) (r r' : Simulator.Manned), Simulator.Manned.Moves r r' →
      World.Moves (w.withMachine r) (w.withMachine r') := fun _ _ _ hmove => .engine hmove
  have hget : ∀ (m : Simulator.Manned) (w : Scene), (withMachine m w).machine = m :=
    fun _ _ => rfl
  have hset : ∀ (m m' : Simulator.Manned) (w : Scene),
      withMachine m (withMachine m' w) = withMachine m w := fun _ _ _ => rfl
  have hleads := Leads.within hget hset hmoves hc w
  have hsame : withMachine ⟨s.engine, w.threads⟩ w = w := by rw [← hengine]; rfl
  rw [hsame] at hleads
  refine ⟨withMachine ⟨e', crew'⟩ w, ⟨?_, hcrew', hw.task⟩, hleads⟩
  rw [← hw.snapshot]
  rfl

/-- To start polling. -/
theorem runs_start :
    Runs (change fun w : Scene => { w with task := .started }) s () { s with polling := true } := by
  refine .once fun w hw => ⟨rfl, rfl, ?_, hw.crew, .inr ⟨.inl rfl, rfl, rfl, rfl⟩⟩
  rw [← hw.snapshot]
  rfl

/-- A simulator that was just made takes the place of the other one. -/
theorem runs_replace (hfresh : s.fresh.running = false) :
    Runs (change fun w : Scene =>
      w.withMachine { engine := w.session.fresh, threads := Threaded.fresh Simulator }) s ()
      { s with engine := s.fresh } := by
  refine .once fun w hw => ⟨rfl, rfl, ?_, ?_, hw.task⟩
  · rw [← hw.snapshot]
    rfl
  · have hsame : w.session.fresh = s.fresh := by
      rw [← hw.snapshot]
      rfl
    show Simulator.Crew.Quiet {} w.session.fresh.running
    rw [hsame, hfresh]
    exact Simulator.Crew.quiet_empty

end Runs

end World

end Monitor68
