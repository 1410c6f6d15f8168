import Monitor68.Proofs.Threads.Agreement
import Monitor68.Proofs.Threads.Course

/-!
# Runs that resume nothing

Whether there is anything to resume, a run decides from the polling
thread.  If that thread is alive, the session counts as running and the
run answers at once that all is well.  But the thread outlives a run of
the engine by up to one of its rounds, and a run that is asked for in that
time is dropped: it answers that all is well, and the engine stays at
rest.

`run_dropped_iff` says that this is the only way.  A run that succeeds has
had the engine execute at some moment, unless the engine was at rest at
the call and the polling thread lived until the answer.  A run that is
dropped has done nothing at all.
-/

namespace Monitor68

open Script Simulator Relation

/-! ## Starting the engine -/

namespace Simulator.Manned

/-- Moves of the threads of an engine that is at rest. -/
def MovesAtRest (m m' : Manned) : Prop := m.engine.running = false ∧ m.Moves m'

/-- Nothing is left to move once the engine executes. -/
theorem going_stable : Stable MovesAtRest fun m => m.engine.running = true :=
  stable_of_blocked fun _ _ hmove => Bool.eq_false_iff.1 hmove.1

/-- To begin to execute succeeds only with the engine executing, which it did
before or does now. -/
theorem run_starts (m : Manned) :
    Ensures MovesAtRest (fun _ _ => True)
      (fun a m => a = .ok () → m.engine.running = true) run m := by
  refine Ensures.bind (M := fun _ _ => True) (.trivial _ m) fun powered t _ => ?_
  split
  · have hlook : Ensures MovesAtRest (fun _ _ => True)
        (fun running (m : Manned) => running = true → m.engine.running = true)
        (look fun m => m.engine.running) t := by
      refine .once (P := fun _ => True) (fun _ _ _ _ => trivial) ?_ trivial
        fun u _ _ => ⟨trivial, id⟩
      exact fun running s s' hs hmove htrue => going_stable s s' (hs htrue) hmove
    refine hlook.bind fun running u hu => ?_
    split
    · rename_i htrue
      exact fun v hv _ => going_stable.star (hu htrue) hv
    · refine Ensures.bind (M := fun _ _ => True) (.trivial _ u) fun _ v _ => ?_
      -- The flag is set next, whatever the wait for the last thread has led to.
      refine Ensures.bind (M := fun _ m => m.engine.running = true)
        (.once (P := fun _ => True) (fun _ _ _ _ => trivial) (fun _ => going_stable) trivial
          fun _ _ _ => ⟨trivial, rfl⟩) fun _ x hx => ?_
      refine Ensures.bind (M := fun _ m => m.engine.running = true)
        (.once going_stable (fun _ => going_stable) hx fun _ hs _ => ⟨trivial, hs⟩)
        fun _ z hz => ?_
      exact fun v hv _ => going_stable.star hz hv
  · refine fun v _ hok => ?_
    cases hok

end Simulator.Manned

/-! ## Parts of a run -/

namespace World

/-- Moves of the other threads while the engine is at rest. -/
def MovesAtRest (w w' : Scene) : Prop := w.session.engine.running = false ∧ Moves w w'

/-- The answer, if it is that all is well, comes with the engine executing. -/
def Resumed {error : Type} (a : Except error Unit) (w : Scene) : Prop :=
  a = .ok () → w.session.engine.running = true

theorem executing_stable : Stable MovesAtRest fun w => w.session.engine.running = true :=
  stable_of_blocked fun _ _ hmove => Bool.eq_false_iff.1 hmove.1

/-- A step that does not touch the engine leaves it executing. -/
theorem once_executing {α : Type} {ready : Scene → Bool} {f : Scene → α × Scene}
    (hf : ∀ w, (f w).2.session.engine = w.session.engine) {w : Scene}
    (h : w.session.engine.running = true) :
    Ensures MovesAtRest (fun _ _ => True) (fun _ w => w.session.engine.running = true)
      (once ready f) w := by
  refine .once executing_stable (fun _ => executing_stable) h fun t ht _ => ⟨trivial, ?_⟩
  rw [hf]
  exact ht

/-- What a run does about a session that nobody polls. -/
def resume : Script Scene (Except SessionError Unit) := do
  let answer ← onMachine Threaded.run
  match answer with
  | .error error => fail (.engine error)
  | .ok () =>
    enter .running
    change fun w => { w with task := .started }
    pure (.ok ())

/-- What a run does about a powered engine. -/
def runOnPower : Script Scene (Except SessionError Unit) := do
  let active ← look fun w => w.task.isActive
  if active then pure (.ok ()) else resume

theorem script_run_eq (settings : Settings) :
    (script settings .run : Script Scene _) = (do
      let powered ← look fun w => w.session.engine.powered
      if powered then runOnPower else fail .notPowered) :=
  rfl

/-- The polling thread does not let go of itself. -/
theorem held_poll (w : Scene) : w.poll.task.held = w.task.held := by
  obtain ⟨state, watches, told, task, place, hpoll, -, -, hheld⟩ := w.poll_frame
  rw [hpoll]
  exact hheld

/-- A polling thread that has ended, or that nobody holds, stays so. -/
theorem inactive_stable : Stable MovesAtRest fun w : Scene => w.task.isActive = false := by
  intro w w' hw hmove
  obtain ⟨-, hmove⟩ := hmove
  cases hmove with
  | engine h => exact hw
  | poll hphase =>
    have hheld : w.task.held = false := by simpa [RepeatingTask.isActive, hphase] using hw
    simp [RepeatingTask.isActive, held_poll, hheld]

theorem fail_resumed (error : SessionError) (w : Scene) :
    Ensures MovesAtRest (fun _ _ => True) Resumed (fail error) w := by
  refine Ensures.bind (M := fun _ _ => True) (.trivial _ w) fun _ t _ => ?_
  refine fun u _ hok => ?_
  cases hok

/-- The engine is started, and what follows leaves it alone. -/
theorem resume_resumed (w : Scene) :
    Ensures MovesAtRest (fun _ _ => True) Resumed resume w := by
  have hmoves : ∀ s t : Scene, MovesAtRest s t →
      ReflTransGen Manned.MovesAtRest s.machine t.machine := by
    intro s t hmove
    obtain ⟨hrest, hmove⟩ := hmove
    cases hmove with
    | engine h => exact .single ⟨hrest, h⟩
    | poll h => rw [machine_poll]
  have hstart : Ensures MovesAtRest (fun _ _ => True) Resumed (onMachine Threaded.run) w := by
    refine (Ensures.within (F := fun _ => True) (fun _ _ => rfl) hmoves
      (fun _ _ _ _ => trivial) (fun _ _ _ => trivial) (Manned.run_starts w.machine)
      trivial).mono (fun _ _ _ => trivial) fun a s hs => hs.2
  refine hstart.bind fun answer t ht => ?_
  cases answer with
  | error error => exact fail_resumed _ t
  | ok _ =>
    have hentered : Ensures MovesAtRest (fun _ _ => True)
        (fun _ w => w.session.engine.running = true) (enter .running) t := by
      refine (once_executing (fun _ => rfl) (ht rfl)).bind fun previous u hu => ?_
      split
      · exact .pure executing_stable hu
      · exact once_executing (fun _ => rfl) hu
    refine hentered.bind fun _ u hu => ?_
    refine (once_executing (fun _ => rfl) hu).bind fun _ v hv => ?_
    exact fun x hx _ => executing_stable.star hv hx

theorem runOnPower_resumed {w : Scene} (h : w.task.isActive = false) :
    Ensures MovesAtRest (fun _ _ => True) Resumed runOnPower w := by
  have hlook : Ensures MovesAtRest (fun _ _ => True) (fun active _ => active = false)
      (look fun w : Scene => w.task.isActive) w :=
    .once inactive_stable (fun _ _ _ hs _ => hs) h fun t ht _ => ⟨trivial, ht⟩
  refine hlook.bind fun active t hactive => ?_
  rw [hactive, if_neg Bool.false_ne_true]
  exact resume_resumed t

theorem run_resumed {w : Scene} (h : w.task.isActive = false) (settings : Settings) :
    Ensures MovesAtRest (fun _ _ => True) Resumed (script settings .run) w := by
  rw [script_run_eq]
  have hlook : Ensures MovesAtRest (fun _ _ => True) (fun _ w => w.task.isActive = false)
      (look fun w : Scene => w.session.engine.powered) w :=
    .once inactive_stable (fun _ => inactive_stable) h fun t ht _ => ⟨trivial, ht⟩
  refine hlook.bind fun powered t ht => ?_
  split
  · exact runOnPower_resumed ht
  · exact fail_resumed _ t

end World

/-! ## From the call to the answer -/

namespace System

/-- The owner has begun a run and not yet looked for the polling thread. -/
def Undecided (y : Stage) : Prop :=
  ∃ settings, y.owner = .busy (World.script settings .run) ∨ y.owner = .busy World.runOnPower

/-- The owner has the answer that all is well. -/
def Answered (y : Stage) : Prop := y.owner = .busy (.done (.ok ()))

/-- What a step of any thread makes of a run that is undecided. -/
theorem Undecided.step {y y' : Stage} (h : Undecided y) {thread : Thread}
    (hstep : Step thread y y') :
    (y'.world = y.world ∨ World.Moves y.world y'.world) ∧
    (Undecided y' ∨ y.world.task.isActive = true ∧ Answered y' ∨
      y.world.task.isActive = false ∧ y'.owner = .busy World.resume ∨
      y'.owner = .busy (World.fail .notPowered)) := by
  obtain ⟨w, owner⟩ := y
  obtain ⟨settings, rfl | rfl⟩ := h
  · rw [World.script_run_eq] at hstep
    rcases Step.of_look hstep with rfl | ⟨w', hmove, rfl⟩
    · refine ⟨.inl rfl, ?_⟩
      cases w.session.engine.powered with
      | true => exact .inl ⟨settings, .inr rfl⟩
      | false => exact .inr (.inr (.inr rfl))
    · exact ⟨.inr hmove, .inl ⟨settings, .inl rfl⟩⟩
  · rcases Step.of_look hstep with rfl | ⟨w', hmove, rfl⟩
    · refine ⟨.inl rfl, .inr ?_⟩
      cases w.task.isActive with
      | true => exact .inl ⟨rfl, rfl⟩
      | false => exact .inr (.inl ⟨rfl, rfl⟩)
    · exact ⟨.inr hmove, .inl ⟨settings, .inr rfl⟩⟩

theorem Undecided.not_answered {y : Stage} (h : Undecided y) : ¬ Answered y := by
  intro hanswered
  obtain ⟨settings, howner | howner⟩ := h
  · rw [Answered, howner] at hanswered
    cases hanswered
  · rw [Answered, howner] at hanswered
    cases hanswered

theorem Answered.step {y y' : Stage} (h : Answered y) {thread : Thread}
    (hstep : Step thread y y') (hbusy : y'.owner ≠ .idle) :
    Answered y' ∧ World.Moves y.world y'.world := by
  obtain ⟨w, owner⟩ := y
  cases h
  rcases hstep.of_done with rfl | ⟨w', hmove, rfl⟩
  · exact absurd rfl hbusy
  · exact ⟨rfl, hmove⟩

/-- An undecided run without a polling thread has the engine execute if it
succeeds. -/
theorem Undecided.headed {y : Stage} (h : Undecided y) (hinactive : y.world.task.isActive = false) :
    Headed World.MovesAtRest World.Resumed y := by
  obtain ⟨settings, howner | howner⟩ := h
  · exact ⟨_, howner, World.run_resumed hinactive settings⟩
  · exact ⟨_, howner, World.runOnPower_resumed hinactive⟩

/-- The run has done nothing so far: it is undecided and the polling thread is
alive, or it has been answered. -/
def Idling (y : Stage) : Prop :=
  Undecided y ∧ y.world.task.isActive = true ∨ Answered y

/-- The step lemma: such a run goes on without doing anything, or it fails. -/
theorem Idling.step {y y' : Stage} (h : Idling y) {thread : Thread} (hstep : Step thread y y')
    (hbusy : y'.owner ≠ .idle) :
    (y'.world = y.world ∨ World.Moves y.world y'.world) ∧
    (Undecided y' ∨ Answered y' ∨ y'.owner = .busy (World.fail .notPowered)) := by
  rcases h with ⟨hundecided, hactive⟩ | hanswered
  · obtain ⟨hworld, hundecided' | ⟨-, hanswered⟩ | ⟨hinactive, -⟩ | hfail⟩ :=
      hundecided.step hstep
    · exact ⟨hworld, .inl hundecided'⟩
    · exact ⟨hworld, .inr (.inl hanswered)⟩
    · exact absurd (hactive.symm.trans hinactive) (by simp)
    · exact ⟨hworld, .inr (.inr hfail)⟩
  · obtain ⟨hanswered', hmove⟩ := hanswered.step hstep hbusy
    exact ⟨.inr hmove, .inr (.inl hanswered')⟩

section Call

variable {w : Scene} {settings : Settings} {ys : List Stage} {y : Stage}

/-- As long as the engine has not executed since the call, either a success
would have it execute, or the run has done nothing at all times. -/
theorem idling_of_rest (h : Course ⟨w, .busy (World.script settings .run)⟩ ys y)
    (hbusy : ∀ z ∈ ys, z.owner ≠ .idle)
    (hrest : ∀ z ∈ ys, z.world.session.engine.running = false) :
    Headed World.MovesAtRest World.Resumed y ∨ ∀ z ∈ ys, Idling z := by
  have hbegins : ∀ {y : Stage}, Undecided y →
      Headed World.MovesAtRest World.Resumed y ∨ Idling y := by
    intro y hundecided
    cases hactive : y.world.task.isActive with
    | false => exact .inl (hundecided.headed hactive)
    | true => exact .inr (.inl ⟨hundecided, hactive⟩)
  induction h with
  | here => exact (hbegins ⟨settings, .inl rfl⟩).imp_right List.forall_mem_singleton.2
  | @step ys y' y'' thread path hstep ih =>
    obtain ⟨hbusy, hbusy'⟩ := List.forall_mem_append.1 hbusy
    obtain ⟨hrest, -⟩ := List.forall_mem_append.1 hrest
    have hbusy' : y''.owner ≠ .idle := hbusy' y'' (List.mem_singleton_self _)
    -- Once headed for the engine to execute, the run stays so: every move is one at rest.
    rcases ih hbusy hrest with hheaded | hidling
    · exact .inl (hheaded.step hstep (fun _ hmove => ⟨hrest _ path.last_mem, hmove⟩) hbusy')
    have hnext : Headed World.MovesAtRest World.Resumed y'' ∨ Idling y'' := by
      obtain ⟨-, hundecided | hanswered | hfail⟩ :=
        (hidling _ path.last_mem).step hstep hbusy'
      · exact hbegins hundecided
      · exact .inr (.inr hanswered)
      · exact .inl ⟨_, hfail, World.fail_resumed _ _⟩
    exact hnext.imp_right fun hidling' =>
      List.forall_mem_append.2 ⟨hidling, List.forall_mem_singleton.2 hidling'⟩

/-- As long as the polling thread was alive at all times before the answer, a
run has done nothing, or it fails. -/
theorem moves_of_attended (h : Course ⟨w, .busy (World.script settings .run)⟩ ys y)
    (hbusy : ∀ z ∈ ys, z.owner ≠ .idle)
    (hactive : ∀ z ∈ ys, ¬ Answered z → z.world.task.isActive = true) :
    Headed World.Moves (fun a _ => a ≠ .ok ()) y ∨
    Idling y ∧ ∀ z ∈ ys, ReflTransGen World.Moves w z.world := by
  induction h with
  | here =>
    have hundecided : Undecided ⟨w, .busy (World.script settings .run)⟩ := ⟨settings, .inl rfl⟩
    have hfirst := List.forall_mem_singleton.1 hactive hundecided.not_answered
    exact .inr ⟨.inl ⟨hundecided, hfirst⟩, List.forall_mem_singleton.2 .refl⟩
  | @step ys y' y'' thread path hstep ih =>
    obtain ⟨hbusy, hbusy'⟩ := List.forall_mem_append.1 hbusy
    obtain ⟨hactive, hactive'⟩ := List.forall_mem_append.1 hactive
    have hbusy' : y''.owner ≠ .idle := hbusy' y'' (List.mem_singleton_self _)
    rcases ih hbusy hactive with hheaded | ⟨hidling, hmoves⟩
    · exact .inl (hheaded.step hstep (fun _ => id) hbusy')
    obtain ⟨hworld, hstage⟩ := hidling.step hstep hbusy'
    have hmoves' : ReflTransGen World.Moves w y''.world := by
      have hlast := hmoves _ path.last_mem
      rcases hworld with heq | hmove
      · rw [heq]
        exact hlast
      · exact hlast.tail hmove
    have hall : ∀ z ∈ ys ++ [y''], ReflTransGen World.Moves w z.world :=
      List.forall_mem_append.2 ⟨hmoves, List.forall_mem_singleton.2 hmoves'⟩
    rcases hstage with hundecided | hanswered | hfail
    · have hlive := List.forall_mem_singleton.1 hactive' hundecided.not_answered
      exact .inr ⟨.inl ⟨hundecided, hlive⟩, hall⟩
    · exact .inr ⟨.inr hanswered, hall⟩
    · refine .inl ⟨_, hfail, Ensures.bind (M := fun _ _ => True) (.trivial _ _) fun _ t _ => ?_⟩
      exact fun _ _ => by simp

end Call

/-- A run that answers that all is well, among any moves of the other threads:
the engine does not execute at any moment from the call to the answer
exactly if it was at rest at the call and the polling thread was alive
until the answer.  In that case nobody but the other threads has changed
anything. -/
theorem run_dropped_iff {w w' : Scene} {ys : List Stage}
    (h : Course ⟨w, .busy (World.script w.session.settings .run)⟩ ys
      ⟨w', .busy (.done (.ok ()))⟩)
    (hbusy : ∀ z ∈ ys, z.owner ≠ .idle) :
    ((∀ z ∈ ys, z.world.session.engine.running = false) ↔
      w.session.engine.running = false ∧
        ∀ z ∈ ys, ¬ Answered z → z.world.task.isActive = true) ∧
    ((∀ z ∈ ys, z.world.session.engine.running = false) → ReflTransGen World.Moves w w') := by
  have hattended : (∀ z ∈ ys, z.world.session.engine.running = false) →
      w.session.engine.running = false ∧
        ∀ z ∈ ys, ¬ Answered z → z.world.task.isActive = true := by
    intro hrest
    refine ⟨hrest _ h.first_mem, fun z hz hnot => ?_⟩
    rcases idling_of_rest h hbusy hrest with hheaded | hidling
    · have hrunning : w'.session.engine.running = true := hheaded.done rfl
      have hlast : w'.session.engine.running = false := hrest _ h.last_mem
      exact absurd (hrunning.symm.trans hlast) (by simp)
    · exact ((hidling z hz).resolve_right hnot).2
  have hmoves : (∀ z ∈ ys, ¬ Answered z → z.world.task.isActive = true) →
      ∀ z ∈ ys, ReflTransGen World.Moves w z.world := by
    intro hactive
    rcases moves_of_attended h hbusy hactive with hheaded | ⟨-, hmoves⟩
    · exact absurd rfl hheaded.done
    · exact hmoves
  refine ⟨⟨hattended, fun hw z hz => ?_⟩, fun hrest => ?_⟩
  · obtain ⟨hrest, hactive⟩ := hw
    have hstable : Stable World.Moves fun w : Scene => w.outline.running = false :=
      fun _ _ hs hmove => Outline.rest_stable _ _ hs hmove.outline
    exact hstable.star hrest (hmoves hactive z hz)
  · exact hmoves (hattended hrest).2 _ h.last_mem

/-! ## A run that is dropped -/

/-- A run in a world in which the other threads do not move. -/
def dropped (w : Scene) : List Stage :=
  [⟨w, .busy (World.script w.session.settings .run)⟩, ⟨w, .busy World.runOnPower⟩,
    ⟨w, .busy (.done (.ok ()))⟩]

/-- The engine has halted, the polling thread has not yet noticed, and the
owner asks for a run. -/
theorem exists_dropped : ∃ w : Scene, Reachable ⟨w, .idle⟩ ∧ w.snapshot = endedRun ∧
    w.session.engine.running = false ∧
    Course ⟨w, .busy (World.script w.session.settings .run)⟩ (dropped w)
      ⟨w, .busy (.done (.ok ()))⟩ := by
  obtain ⟨w, hw, h⟩ := reachable_after {} 16 [.asked (.load emptyFiles ""), .asked .run, .turn]
  have hsnapshot : w.snapshot = endedRun := hw.snapshot
  have hpowered : w.session.engine.powered = true := by
    show w.snapshot.engine.powered = true
    rw [hsnapshot]
    decide +kernel
  have hrest : w.session.engine.running = false := by
    show w.snapshot.engine.running = false
    rw [hsnapshot]
    decide +kernel
  have hactive : w.task.isActive = true := by
    show w.snapshot.polling = true
    rw [hsnapshot]
    decide +kernel
  have hcalled : Step .owner ⟨w, .busy (World.script w.session.settings .run)⟩
      ⟨w, .busy World.runOnPower⟩ := by
    have hact : Step .owner ⟨w, .busy (World.script w.session.settings .run)⟩
        ⟨w, .busy (if w.session.engine.powered then World.runOnPower
          else World.fail .notPowered)⟩ := .act rfl
    rwa [if_pos hpowered] at hact
  have hanswered : Step .owner ⟨w, .busy World.runOnPower⟩ ⟨w, .busy (.done (.ok ()))⟩ := by
    have hact : Step .owner ⟨w, .busy World.runOnPower⟩
        ⟨w, .busy (if w.task.isActive then .done (.ok ()) else World.resume)⟩ := .act rfl
    rwa [if_pos hactive] at hact
  exact ⟨w, h, hsnapshot, hrest, (Course.here.step hcalled).step hanswered⟩

theorem owner_of_dropped (w : Scene) : ∀ z ∈ dropped w, z.owner ≠ .idle := by
  simp [dropped]

theorem rest_of_dropped {w : Scene} (h : w.session.engine.running = false) :
    ∀ z ∈ dropped w, z.world.session.engine.running = false := by
  simp [dropped, h]

theorem dropped_while_attended : ∃ w : Scene, Reachable ⟨w, .idle⟩ ∧ w.snapshot = endedRun ∧
    Course ⟨w, .busy (World.script w.session.settings .run)⟩ (dropped w)
      ⟨w, .busy (.done (.ok ()))⟩ ∧
    ∀ z ∈ dropped w, ¬ Answered z → z.world.task.isActive = true := by
  obtain ⟨w, h, hsnapshot, hrest, hcourse⟩ := exists_dropped
  obtain ⟨hiff, -⟩ := run_dropped_iff hcourse (owner_of_dropped w)
  obtain ⟨-, hactive⟩ := hiff.1 (rest_of_dropped hrest)
  exact ⟨w, h, hsnapshot, hcourse, hactive⟩

/-- A run after the end of another one is answered that all is well, and the
engine executes at no moment in between. -/
theorem run_resumes_nothing : ∃ (w : Scene) (ys : List Stage),
    Reachable ⟨w, .idle⟩ ∧ w.snapshot = endedRun ∧
    Course ⟨w, .busy (World.script w.session.settings .run)⟩ ys ⟨w, .busy (.done (.ok ()))⟩ ∧
    (∀ z ∈ ys, z.owner ≠ .idle) ∧ ∀ z ∈ ys, z.world.session.engine.running = false := by
  obtain ⟨w, h, hsnapshot, hrest, hcourse⟩ := exists_dropped
  exact ⟨w, dropped w, h, hsnapshot, hcourse, owner_of_dropped w, rest_of_dropped hrest⟩

end System

end Monitor68
