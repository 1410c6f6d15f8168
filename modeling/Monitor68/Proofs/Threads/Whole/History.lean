import Mathlib.Data.List.Induction
import Monitor68.Proofs.Threads.Whole.Operations

/-!
# Histories among threads

Whatever a history of operations, turns and polls leads to is a system that
the threads can reach.  So what holds of all systems that the threads can
reach holds after every history.
-/

namespace Monitor68

open Script Relation

namespace World

/-! ## Turns and polls -/

theorem shows_turn {w : Scene} {s : Session Simulator} (hw : w.Shows s) :
    ∃ w' : Scene, w'.Shows { s with engine := s.engine.turn } ∧
      ReflTransGen World.Moves w w' := by
  obtain ⟨crew', hcrew', hmoves⟩ :=
    Simulator.Manned.moves_turn w.session.engine w.threads hw.crew
  refine ⟨w.withMachine ⟨w.session.engine.turn, crew'⟩, ⟨?_, hcrew', hw.task⟩, ?_⟩
  · rw [← hw.snapshot]
    rfl
  · exact hmoves.lift (fun m => withMachine m w) fun _ _ hmove => .engine hmove

theorem moves_tick {w w' : Scene} (hphase : w.task.phase = .ticking) (htick : w.tick = w') :
    World.Moves w w' := by
  have hpoll : w.poll = w' := by rw [poll, hphase, ← htick]
  rw [← hpoll]
  exact .poll (by simp [hphase])

/-- The world once the polling thread at the head of its loop has refreshed
the watched variables and is about to look whether the engine runs. -/
def refreshed (w : Scene) : Scene :=
  let s := w.session.refreshWatches
  { w with
    session := s.emit (.refreshed (.of s.engine s.listing s.watches.watches))
    task := { w.task with phase := .ticking, ticks := w.task.ticks + 1 }
    place := .checking }

theorem moves_refreshed {w : Scene} (hphase : w.task.phase = .testing)
    (hcancelled : w.task.cancelled = false) : ReflTransGen World.Moves w w.refreshed := by
  have hbegin : w.poll = { w with task := w.refreshed.task, place := .refreshing } := by
    simp [poll, hphase, RepeatingTask.test, hcancelled, refreshed]
  have hfirst : World.Moves w { w with task := w.refreshed.task, place := .refreshing } := by
    rw [← hbegin]
    exact .poll (by simp [hphase])
  exact .tail (.tail (.single hfirst) (moves_tick rfl rfl)) (moves_tick rfl rfl)

/-- The rest of a tick at an engine that has halted, if the session runs. -/
theorem moves_halted {w : Scene} (hrest : ¬ w.session.engine.running = true)
    (hstate : w.session.state = .running) :
    ReflTransGen World.Moves w.refreshed
      { w.refreshed with
        session := ({ w.refreshed.session with state := .halted } : Session Simulator).emit
          (.stateChanged .halted)
        task := w.refreshed.task.endTick { ends := true }
        place := .leaving } := by
  have hnotice : World.Moves w.refreshed { w.refreshed with place := .closing } :=
    moves_tick rfl (if_neg hrest)
  have hhalt : World.Moves { w.refreshed with place := .closing }
      { w.refreshed with
        session := { w.refreshed.session with state := .halted }
        place := .announcing } := moves_tick rfl (if_pos hstate)
  exact .tail (.tail (.tail (.single hnotice) hhalt) (moves_tick rfl rfl)) (moves_tick rfl rfl)

/-- The rest of such a tick if the session does not run. -/
theorem moves_passed {w : Scene} (hrest : ¬ w.session.engine.running = true)
    (hstate : ¬ w.session.state = .running) :
    ReflTransGen World.Moves w.refreshed
      { w.refreshed with
        task := w.refreshed.task.endTick { ends := true }
        place := .leaving } := by
  have hnotice : World.Moves w.refreshed { w.refreshed with place := .closing } :=
    moves_tick rfl (if_neg hrest)
  have hpass : World.Moves { w.refreshed with place := .closing }
      { w.refreshed with place := .leaving } := moves_tick rfl (if_neg hstate)
  exact .tail (.tail (.single hnotice) hpass) (moves_tick rfl rfl)

/-- A poll, as far as it is the same in every case, refreshes. -/
theorem poll_snapshot {w : Scene} (hactive : w.task.isActive = true) :
    let s : Session Simulator := { w.refreshed.session with polling := true }
    w.snapshot.poll =
      if w.session.engine.running = true then s
      else { if w.session.state = .running then s.enter .halted else s with polling := false } := by
  rw [snapshot, hactive]
  rfl

/-- A polling thread at the head of its loop goes round once. -/
theorem shows_poll_of_testing {w : Scene} {s : Session Simulator} (hw : w.Shows s)
    (hphase : w.task.phase = .testing) (hheld : w.task.held = true)
    (hcancelled : w.task.cancelled = false) (hsignalled : w.task.signalled = false) :
    ∃ w' : Scene, w'.Shows s.poll ∧ ReflTransGen World.Moves w w' := by
  have hactive : w.task.isActive = true := by simp [RepeatingTask.isActive, hheld, hphase]
  have hrefreshed := moves_refreshed hphase hcancelled
  rw [← hw.snapshot, poll_snapshot hactive]
  by_cases hrunning : w.session.engine.running = true
  · have hgoOn : World.Moves w.refreshed
        { w.refreshed with task := w.refreshed.task.endTick {} } := moves_tick rfl (if_pos hrunning)
    refine ⟨_, ?_, .tail hrefreshed hgoOn⟩
    refine ⟨?_, hw.crew, .inr ⟨.inr rfl, hheld, hcancelled, hsignalled⟩⟩
    have hstill : (w.refreshed.task.endTick {}).isActive = true := by
      simp [RepeatingTask.isActive, RepeatingTask.endTick, refreshed, hheld]
    rw [if_pos hrunning, snapshot, hstill]
  · rw [if_neg hrunning]
    have hended : (w.refreshed.task.endTick { ends := true }).isActive = false :=
      Bool.and_false _
    by_cases hstate : w.session.state = .running
    · refine ⟨_, ?_, .trans hrefreshed (moves_halted hrunning hstate)⟩
      refine ⟨?_, hw.crew, .inl rfl⟩
      have hother : ¬ w.refreshed.session.state = .halted := by
        rw [show w.refreshed.session.state = .running from hstate]
        simp
      rw [if_pos hstate, Session.enter, if_neg hother, snapshot, hended]
      rfl
    · refine ⟨_, ?_, .trans hrefreshed (moves_passed hrunning hstate)⟩
      refine ⟨?_, hw.crew, .inl rfl⟩
      rw [if_neg hstate, snapshot, hended]

theorem shows_poll {w : Scene} {s : Session Simulator} (hw : w.Shows s) :
    ∃ w' : Scene, w'.Shows s.poll ∧ ReflTransGen World.Moves w w' := by
  rcases hw.task with hphase | ⟨hphase | hphase, hheld, hcancelled, hsignalled⟩
  · have hpolling : s.polling = false := by
      rw [← hw.snapshot]
      simp [snapshot, RepeatingTask.isActive, hphase]
    have hsame : s.poll = s := by simp [Session.poll, hpolling]
    exact ⟨w, hsame.symm ▸ hw, .refl⟩
  · exact shows_poll_of_testing hw hphase hheld hcancelled hsignalled
  · have hlive : w.task.phase ≠ .finished := by simp [hphase]
    have hpoll : w.poll = { w with task := { w.task with phase := .testing } } := by
      simp [poll, hphase, RepeatingTask.wake, hsignalled]
    have hshows : w.poll.Shows s := by
      rw [hpoll]
      refine ⟨?_, hw.crew, .inr ⟨.inl rfl, hheld, hcancelled, hsignalled⟩⟩
      have hactive : w.task.isActive = true := by
        simp [RepeatingTask.isActive, hheld, hphase]
      rw [← hw.snapshot, snapshot, snapshot, hactive]
      simp [RepeatingTask.isActive, hheld]
    obtain ⟨w', hw', hmoves⟩ := shows_poll_of_testing hshows (by rw [hpoll])
      (by rw [hpoll]; exact hheld) (by rw [hpoll]; exact hcancelled)
      (by rw [hpoll]; exact hsignalled)
    exact ⟨w', hw', .head (.poll hlive) hmoves⟩

end World

/-! ## Histories -/

namespace System

open Session

theorem reachable_of_moves {w w' : Scene} {owner : Owner Simulator Simulator.Crew}
    (h : Reachable ⟨w, owner⟩) (hmoves : ReflTransGen World.Moves w w') :
    Reachable ⟨w', owner⟩ := by
  induction hmoves with
  | refl => exact h
  | tail _ hmove ih =>
    cases hmove with
    | engine hm => exact .step ih (.engine hm)
    | poll hphase => exact .step ih (.poll hphase)

theorem reachable_of_leads {c : Script Scene (Except SessionError Unit)} {w w' : Scene}
    {a : Except SessionError Unit} (h : Reachable ⟨w, .busy c⟩)
    (hleads : Leads World.Moves c w a w') : Reachable ⟨w', .idle⟩ := by
  induction hleads with
  | done => exact .step h .finish
  | moved hmove _ ih => exact ih (reachable_of_moves h (.single hmove))
  | acted hready _ ih => exact ih (.step h (.act hready))

/-- Whatever happens to a session that is taken as a whole can happen to it
among threads. -/
theorem reachable_apply {w : Scene} {s : Session Simulator} (hw : w.Shows s)
    (h : Reachable ⟨w, .idle⟩) (hfresh : s.fresh.running = false) (happening : Happening) :
    ∃ w' : Scene, w'.Shows (happening.apply s) ∧ Reachable ⟨w', .idle⟩ := by
  cases happening with
  | asked request =>
    obtain ⟨w', hw', hleads⟩ := World.runs_script hfresh request w hw
    have hsettings : w.session.settings = s.settings := by
      rw [← hw.snapshot]
      rfl
    have hbegin := Reachable.step h (.begin request)
    rw [hsettings] at hbegin
    exact ⟨w', hw', reachable_of_leads hbegin hleads⟩
  | turn =>
    obtain ⟨w', hw', hmoves⟩ := World.shows_turn hw
    exact ⟨w', hw', reachable_of_moves h hmoves⟩
  | poll =>
    obtain ⟨w', hw', hmoves⟩ := World.shows_poll hw
    exact ⟨w', hw', reachable_of_moves h hmoves⟩
  | supplied size =>
    have hmade : Threaded.Made (Simulator.blank size) := ⟨rfl, rfl⟩
    let supplied : Scene :=
      { w with session := { w.session with fresh := Simulator.blank size } }
    refine ⟨supplied, ⟨?_, hw.crew, hw.task⟩, .step h (.supply hmade)⟩
    rw [← hw.snapshot]
    rfl

/-- Every history of a session is one of the interleavings of its threads. -/
theorem reachable_after (settings : Settings) (size : Nat) (history : List Happening) :
    ∃ w : Scene, w.Shows ((Session.new settings (.blank size)).after history) ∧
      Reachable ⟨w, .idle⟩ := by
  induction history using List.reverseRecOn with
  | nil =>
    have hmade : Threaded.Made (Simulator.blank size) := ⟨rfl, rfl⟩
    let begun : System Simulator Simulator.Crew := start settings (.blank size)
    exact ⟨begun.world, ⟨rfl, Simulator.Crew.quiet_empty, .inl rfl⟩, .start settings hmade⟩
  | append_singleton history happening ih =>
    obtain ⟨w, hw, h⟩ := ih
    obtain ⟨size', hsize⟩ := (residue_after (holds_new settings size) history).fresh
    have hfresh : ((Session.new settings (.blank size)).after history).fresh.running = false := by
      rw [hsize]
      rfl
    have hafter : (Session.new settings (.blank size)).after (history ++ [happening]) =
        happening.apply ((Session.new settings (.blank size)).after history) := by
      simp [after]
    rw [hafter]
    exact reachable_apply hw h hfresh happening

end System

end Monitor68
