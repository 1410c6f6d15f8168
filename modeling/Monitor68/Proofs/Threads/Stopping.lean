import Monitor68.Proofs.Threads.Trace
import Monitor68.RepeatingTask

/-!
# Stopping a repeating task

A call that stops a task takes several steps: it cancels the task, signals
to the waiting thread, lets go of the thread, and waits for its end unless
it was made by that thread itself, from inside a tick.  Between these
steps the thread goes on, and anyone may cancel the task.  One call at a
time is made, since it has the task for itself.

A `Loop` is a task with its thread and the call in progress.  Its thread
has looked whether the task is cancelled some time before it begins a
tick, and in that time the task may be cancelled.  Seen as a task that
begins a tick when it looks, a loop does what `RepeatingTask` says
(`task_of_step` and `task_of_stop`).

`stop_protocol` says what comes behind any moment of a run.
-/

namespace Monitor68.RepeatingTask

/-! ## The thread and its callers -/

/-- Where the thread of a task is, step by step. -/
inductive LoopPlace where
  /-- About to look whether the task is cancelled. -/
  | testing
  /-- Found it not cancelled, and about to begin a tick. -/
  | entering
  | ticking
  | waiting
  | finished
deriving DecidableEq, Repr

/-- The phase of the task.  A tick counts from the look that leads to it. -/
def LoopPlace.phase : LoopPlace → TaskPhase
  | .testing => .testing
  | .entering => .ticking
  | .ticking => .ticking
  | .waiting => .waiting
  | .finished => .finished

/-- How a tick ends. -/
inductive TickEnd where
  | continues
  | breaks
  | panics
deriving DecidableEq, Repr

/-- Where the thread is after a tick. -/
def TickEnd.place : TickEnd → LoopPlace
  | .continues => .waiting
  | .breaks => .finished
  | .panics => .finished

/-- Who stops a task. -/
inductive Caller where
  | owner
  /-- The thread of the task, from inside a tick. -/
  | tick
deriving DecidableEq, Repr

/-- Where a call that stops a task is. -/
inductive StopPlace where
  | cancelling
  | signalling
  | releasing
  | joining
  | returning
deriving DecidableEq, Repr

/-- A call that stops a task. -/
structure StopCall where
  caller : Caller
  place : StopPlace
deriving DecidableEq, Repr

/-- A task with its thread and the call in progress. -/
structure Loop where
  place : LoopPlace := .testing
  cancelled : Bool := false
  /-- Whether the owner still has the means to signal. -/
  sender : Bool := true
  /-- Whether the waiting thread was told to go. -/
  signalled : Bool := false
  /-- Whether the owner still holds the thread. -/
  held : Bool := true
  /-- The ticks that have begun so far. -/
  begun : Nat := 0
  call : Option StopCall := none
deriving DecidableEq, Repr

namespace Loop

/-- A loop whose thread has just been started. -/
def started : Loop := {}

/-- What an observer of a loop sees happen. -/
inductive Event where
  | looked
  | began
  | ended (how : TickEnd)
  | woke
  | cancelled
  | called (caller : Caller)
  | stopping (caller : Caller)
  | returned (caller : Caller)
deriving DecidableEq, Repr

/-- Whether an event is one of a call that stops the task. -/
def Event.isOfStop : Event → Bool
  | .called _ => true
  | .stopping _ => true
  | .returned _ => true
  | _ => false

/-- One step of a call.  A thread does not wait for its own end. -/
def stopStep (l : Loop) (caller : Caller) : StopPlace → Loop
  | .cancelling => { l with cancelled := true, call := some ⟨caller, .signalling⟩ }
  | .signalling =>
    { l with signalled := l.signalled || l.sender, sender := false,
             call := some ⟨caller, .releasing⟩ }
  | .releasing =>
    { l with held := false,
             call := some ⟨caller, if l.held ∧ caller = .owner then .joining else .returning⟩ }
  | .joining => { l with call := some ⟨caller, .returning⟩ }
  | .returning => { l with call := none }

/-- One step of the thread, of a call, or of one who cancels the task. -/
inductive Step : Event → Loop → Loop → Prop where
  | look {l : Loop} (h : l.place = .testing) :
      Step .looked l { l with place := if l.cancelled then .finished else .entering }
  | begin {l : Loop} (h : l.place = .entering) :
      Step .began l { l with place := .ticking, begun := l.begun + 1 }
  | finish {l : Loop} (how : TickEnd) (h : l.place = .ticking)
      (hcall : ∀ place, l.call ≠ some ⟨.tick, place⟩) :
      Step (.ended how) l { l with place := how.place }
  | wake {l : Loop} (h : l.place = .waiting) :
      Step .woke l { l with place := if l.signalled then .finished else .testing }
  | cancel {l : Loop} : Step .cancelled l { l with cancelled := true }
  | call {l : Loop} (caller : Caller) (hfree : l.call = none)
      (htick : caller = .tick → l.place = .ticking) :
      Step (.called caller) l { l with call := some ⟨caller, .cancelling⟩ }
  | stop {l : Loop} {caller : Caller} {place : StopPlace} (h : l.call = some ⟨caller, place⟩)
      (hready : place = .joining → l.place = .finished) (hplace : place ≠ .returning) :
      Step (.stopping caller) l (l.stopStep caller place)
  | leave {l : Loop} {caller : Caller} (h : l.call = some ⟨caller, .returning⟩) :
      Step (.returned caller) l (l.stopStep caller .returning)

section StopStep

variable (l : Loop) (caller : Caller) (place : StopPlace)

/-- A call does not move the thread. -/
@[simp] theorem place_stopStep : (l.stopStep caller place).place = l.place := by
  cases place <;> rfl

theorem cancelled_stopStep (h : l.cancelled = true) :
    (l.stopStep caller place).cancelled = true := by
  cases place with
  | cancelling => rfl
  | _ => exact h

theorem held_stopStep (h : l.held = false) : (l.stopStep caller place).held = false := by
  cases place with
  | releasing => rfl
  | _ => exact h

end StopStep

/-! ## The loop as a task -/

/-- The task of a loop. -/
def task (l : Loop) : RepeatingTask where
  phase := l.place.phase
  cancelled := l.cancelled
  signalled := l.signalled
  held := l.held
  ticks := if l.place = .entering then l.begun + 1 else l.begun

/-- What an event means for the task. -/
def Event.onTask (t : RepeatingTask) : Event → RepeatingTask
  | .looked => t.test
  | .ended how => t.endTick { ends := how ≠ .continues }
  | .woke => t.wake
  | .cancelled => t.cancel
  | _ => t

variable {l l' : Loop} {e : Event}

/-- A step that is not one of a call does to the task what the task says. -/
theorem task_of_step (hstep : Step e l l') (he : e.isOfStop = false) :
    l'.task = e.onTask l.task := by
  cases hstep with
  | look hplace =>
    cases hc : l.cancelled <;>
      simp [task, Event.onTask, RepeatingTask.test, hplace, hc, LoopPlace.phase]
  | begin hplace => simp [task, Event.onTask, hplace, LoopPlace.phase]
  | finish how hplace _ =>
    cases how <;>
      simp [task, Event.onTask, RepeatingTask.endTick, hplace, LoopPlace.phase, TickEnd.place]
  | wake hplace =>
    cases hs : l.signalled <;>
      simp [task, Event.onTask, RepeatingTask.wake, hplace, hs, LoopPlace.phase]
  | cancel => rfl
  | call caller _ _ => cases he
  | stop _ _ _ => cases he
  | leave _ => cases he

/-! ## What every step keeps -/

/-- How far the call in progress has come. -/
def Progress (l : Loop) : Option StopCall → Prop
  | none => l.sender = l.held
  | some ⟨_, .cancelling⟩ => l.sender = l.held
  | some ⟨_, .signalling⟩ => l.cancelled = true ∧ l.sender = l.held
  | some ⟨_, .releasing⟩ => l.cancelled = true ∧ l.sender = false
  | some ⟨_, .joining⟩ => l.held = false
  | some ⟨_, .returning⟩ => l.held = false

/-- What holds at every moment.  Nobody lets go of the thread unless the task
is cancelled, and the thread is at no tick's beginning then unless the
owner waits for its end. -/
structure Sound (l : Loop) : Prop where
  progress : l.Progress l.call
  released : l.held = false → l.cancelled = true ∧ l.sender = false
  entering : l.held = false → l.place = .entering → l.call = some ⟨.owner, .joining⟩
  inside : ∀ place, l.call = some ⟨.tick, place⟩ → l.place = .ticking ∧ place ≠ .joining

theorem sound_started : started.Sound where
  progress := rfl
  released := by simp [started]
  entering := by simp [started]
  inside := by simp [started]

/-- One step of a call. -/
theorem Sound.stopStep (h : l.Sound) {caller : Caller} {place : StopPlace}
    (hcall : l.call = some ⟨caller, place⟩) (hready : place = .joining → l.place = .finished) :
    (l.stopStep caller place).Sound := by
  obtain ⟨hprogress, hreleased, hentering, hinside⟩ := h
  rw [hcall] at hprogress hentering
  have hticking : caller = .tick → l.place = .ticking := by
    intro htick
    subst htick
    exact (hinside place hcall).1
  cases place with
  | cancelling =>
    refine ⟨⟨rfl, hprogress⟩, fun hheld => ⟨rfl, (hreleased hheld).2⟩, ?_, ?_⟩
    · intro hheld hplace
      cases hentering hheld hplace
    · intro place hp
      cases hp
      exact ⟨hticking rfl, by simp⟩
  | signalling =>
    refine ⟨⟨hprogress.1, rfl⟩, fun hheld => ⟨hprogress.1, rfl⟩, ?_, ?_⟩
    · intro hheld hplace
      cases hentering hheld hplace
    · intro place hp
      cases hp
      exact ⟨hticking rfl, by simp⟩
  | releasing =>
    refine ⟨?_, fun _ => hprogress, ?_, ?_⟩
    · show Progress _ (some ⟨caller, if l.held ∧ caller = .owner then .joining else .returning⟩)
      split <;> rfl
    · intro _ hplace
      have hplace' : l.place = .entering := hplace
      cases hheld : l.held with
      | false => cases hentering hheld hplace'
      | true =>
        have howner : caller = .owner := by
          cases caller with
          | owner => rfl
          | tick =>
            rw [hticking rfl] at hplace'
            cases hplace'
        simp [Loop.stopStep, hheld, howner]
    · intro place hp
      simp only [Loop.stopStep, Option.some.injEq, StopCall.mk.injEq] at hp
      obtain ⟨htick, hp⟩ := hp
      rw [if_neg (by simp [htick])] at hp
      exact ⟨hticking htick, by simp [← hp]⟩
  | joining =>
    refine ⟨hprogress, hreleased, ?_, ?_⟩
    · intro _ hplace
      have hplace' : l.place = .entering := hplace
      rw [hready rfl] at hplace'
      cases hplace'
    · intro place hp
      cases hp
      exact ⟨hticking rfl, by simp⟩
  | returning =>
    refine ⟨?_, hreleased, ?_, by simp [Loop.stopStep]⟩
    · exact (hreleased hprogress).2.trans hprogress.symm
    · intro hheld hplace
      cases hentering hheld hplace

/-- The step lemma. -/
theorem Sound.step (h : l.Sound) (hstep : Step e l l') : l'.Sound := by
  obtain ⟨hprogress, hreleased, hentering, hinside⟩ := h
  cases hstep with
  | look hplace =>
    refine ⟨hprogress, hreleased, ?_, ?_⟩
    · intro hheld hnew
      simp [(hreleased hheld).1] at hnew
    · intro place hcall
      rw [(hinside place hcall).1] at hplace
      cases hplace
  | begin hplace =>
    refine ⟨hprogress, hreleased, by simp, ?_⟩
    intro place hcall
    exact ⟨rfl, (hinside place hcall).2⟩
  | finish how hplace hfree =>
    refine ⟨hprogress, hreleased, ?_, fun place hcall => absurd hcall (hfree place)⟩
    intro _ hnew
    cases how <;> cases hnew
  | wake hplace =>
    refine ⟨hprogress, hreleased, ?_, ?_⟩
    · intro _ hnew
      cases hs : l.signalled <;> simp [hs] at hnew
    · intro place hcall
      rw [(hinside place hcall).1] at hplace
      cases hplace
  | cancel =>
    refine ⟨?_, fun hheld => ⟨rfl, (hreleased hheld).2⟩, hentering, hinside⟩
    obtain hcall | ⟨⟨caller, place⟩, hcall⟩ := Option.eq_none_or_eq_some l.call
    · rw [hcall] at hprogress ⊢
      exact hprogress
    · rw [hcall] at hprogress ⊢
      cases place <;> simp_all [Progress]
  | call caller hfree htick =>
    rw [hfree] at hprogress hentering
    refine ⟨hprogress, hreleased, ?_, ?_⟩
    · intro hheld hplace
      cases hentering hheld hplace
    · intro place hcall
      cases hcall
      exact ⟨htick rfl, by simp⟩
  | stop hcall hready _ => exact stopStep ⟨hprogress, hreleased, hentering, hinside⟩ hcall hready
  | leave hcall => exact stopStep ⟨hprogress, hreleased, hentering, hinside⟩ hcall (by simp)

/-- The run lemma. -/
theorem sound_of_trace {events : List Event} (h : Trace Step started events l) : l.Sound :=
  h.invariant (fun _ _ _ => Sound.step) sound_started

/-- What a call does until it lets go of the thread is what it does to the
task. -/
theorem task_of_stop (h : l.Sound) (hfree : l.call = none) (caller : Caller) :
    (((({ l with call := some ⟨caller, .cancelling⟩ } : Loop).stopStep caller .cancelling).stopStep
      caller .signalling).stopStep caller .releasing).task = l.task.stop := by
  have hsender : l.sender = l.held := by
    have hprogress := h.progress
    rwa [hfree] at hprogress
  simp [Loop.stopStep, task, RepeatingTask.stop, hsender]

/-! ## After a call has returned -/

/-- The owner has let go of the thread, and the thread is at no tick's
beginning. -/
structure Stopped (l : Loop) : Prop where
  sound : l.Sound
  released : l.held = false
  place : l.place ≠ .entering

/-- A stopped task stays so, and begins no tick. -/
theorem Stopped.step (h : l.Stopped) (hstep : Step e l l') : l'.Stopped ∧ e ≠ .began := by
  obtain ⟨hsound, hheld, hplace⟩ := h
  have hcancelled := (hsound.released hheld).1
  have hsound' := hsound.step hstep
  cases hstep with
  | look _ => exact ⟨⟨hsound', hheld, by simp [hcancelled]⟩, by simp⟩
  | begin hentering => exact absurd hentering hplace
  | finish how _ _ => exact ⟨⟨hsound', hheld, by cases how <;> simp [TickEnd.place]⟩, by simp⟩
  | wake _ => exact ⟨⟨hsound', hheld, by cases hs : l.signalled <;> simp⟩, by simp⟩
  | cancel => exact ⟨⟨hsound', hheld, hplace⟩, by simp⟩
  | call caller _ _ => exact ⟨⟨hsound', hheld, hplace⟩, by simp⟩
  | stop _ _ _ => exact ⟨⟨hsound', held_stopStep _ _ _ hheld, by simpa using hplace⟩, by simp⟩
  | leave _ => exact ⟨⟨hsound', hheld, hplace⟩, by simp⟩

/-- A call leaves the task stopped. -/
theorem stopped_of_returned {caller : Caller} (h : l.Sound) (hstep : Step (.returned caller) l l') :
    l'.Stopped := by
  have hsound' := h.step hstep
  cases hstep with
  | leave hcall =>
    have hheld : l.held = false := by
      have hprogress := h.progress
      rwa [hcall] at hprogress
    refine ⟨hsound', hheld, fun hplace => ?_⟩
    have hjoining := h.entering hheld hplace
    rw [hcall] at hjoining
    cases hjoining

/-- The same of all that comes later. -/
theorem stopped_of_mem {events : List Event} {caller : Caller}
    (h : Trace Step started events l) (hreturned : .returned caller ∈ events) : l.Stopped := by
  obtain ⟨_, _, u, v, -, hbefore, hstep, hafter⟩ := h.exists_around hreturned
  exact hafter.invariant (fun _ _ _ h hstep => (h.step hstep).1)
    (stopped_of_returned (sound_of_trace hbefore) hstep)

/-- A further call finds nothing to do. -/
theorem Stopped.call_only (h : l.Stopped) (hstep : Step e l l') (he : e.isOfStop = true) :
    l' = { l with call := l'.call } := by
  have hheld := h.released
  obtain ⟨hcancelled, hsender⟩ := h.sound.released hheld
  cases hstep with
  | look _ => cases he
  | begin _ => cases he
  | finish how _ _ => cases he
  | wake _ => cases he
  | cancel => cases he
  | call caller _ _ => rfl
  | @stop _ caller place _ _ _ =>
    obtain ⟨place', cancelled, sender, signalled, held, begun, call⟩ := l
    cases place <;> simp_all [Loop.stopStep]
  | leave _ => rfl

/-! ## After the task was cancelled, or its thread has finished -/

/-- The ticks that are to begin although the task is cancelled. -/
def owed (l : Loop) : Nat := if l.place = .entering then 1 else 0

theorem owed_step (hcancelled : l.cancelled = true) (hstep : Step e l l') :
    l'.cancelled = true ∧ [e].count .began + l'.owed ≤ l.owed := by
  cases hstep with
  | look _ => exact ⟨hcancelled, by simp [owed, hcancelled]⟩
  | begin hplace => exact ⟨hcancelled, by simp [owed, hplace]⟩
  | finish how _ _ => exact ⟨hcancelled, by cases how <;> simp [owed, TickEnd.place]⟩
  | wake _ => exact ⟨hcancelled, by cases hs : l.signalled <;> simp [owed]⟩
  | cancel => exact ⟨rfl, by simp [owed]⟩
  | call caller _ _ => exact ⟨hcancelled, by simp [owed]⟩
  | stop _ _ _ =>
    refine ⟨cancelled_stopStep _ _ _ hcancelled, ?_⟩
    rw [owed, owed, place_stopStep]
    simp
  | leave _ =>
    refine ⟨cancelled_stopStep _ _ _ hcancelled, ?_⟩
    rw [owed, owed, place_stopStep]
    simp

/-- Of the ticks of a cancelled task at most the one that is owed begins. -/
theorem count_began_le {events : List Event} (hcancelled : l.cancelled = true)
    (h : Trace Step l events l') : events.count .began ≤ 1 := by
  have hcount : l'.cancelled = true ∧ events.count .began + l'.owed ≤ l.owed := by
    induction h with
    | nil => exact ⟨hcancelled, by simp⟩
    | snoc _ hstep ih =>
      obtain ⟨hcancelled', hle⟩ := owed_step ih.1 hstep
      refine ⟨hcancelled', ?_⟩
      rw [List.count_append]
      omega
  have howed : l.owed ≤ 1 := by
    unfold owed
    split <;> decide
  omega

/-- A thread that has finished stays so, and begins no tick. -/
theorem finished_step (h : l.place = .finished) (hstep : Step e l l') :
    l'.place = .finished ∧ e ≠ .began := by
  cases hstep with
  | look hplace => simp [h] at hplace
  | begin hplace => simp [h] at hplace
  | finish how hplace _ => simp [h] at hplace
  | wake hplace => simp [h] at hplace
  | cancel => exact ⟨h, by simp⟩
  | call caller _ _ => exact ⟨h, by simp⟩
  | stop _ _ _ => exact ⟨by simpa using h, by simp⟩
  | leave _ => exact ⟨h, by simp⟩

theorem finished_of_broken {events : List Event} (h : Trace Step started events l)
    (hbroken : .ended .breaks ∈ events) : l.place = .finished := by
  obtain ⟨_, _, u, v, -, -, hstep, hafter⟩ := h.exists_around hbroken
  cases hstep with
  | finish _ _ _ => exact hafter.invariant (fun _ _ _ h hstep => (finished_step h hstep).1) rfl

/-! ## If no call comes from inside a tick -/

/-- Nobody but the owner stops the task, and the owner waits for the end of the
thread when it has let go of it. -/
structure Owned (l : Loop) : Prop where
  sound : l.Sound
  caller : ∀ place, l.call ≠ some ⟨.tick, place⟩
  released : l.held = false → l.place = .finished ∨ l.call = some ⟨.owner, .joining⟩

theorem owned_started : started.Owned where
  sound := sound_started
  caller := by simp [started]
  released := by simp [started]

theorem Owned.step (he : e ≠ .called .tick) (h : l.Owned) (hstep : Step e l l') : l'.Owned := by
  obtain ⟨hsound, hcaller, hreleased⟩ := h
  have hsound' := hsound.step hstep
  cases hstep with
  | look hplace =>
    exact ⟨hsound', hcaller, fun hheld => .inr ((hreleased hheld).resolve_left (by simp [hplace]))⟩
  | begin hplace =>
    exact ⟨hsound', hcaller, fun hheld => .inr ((hreleased hheld).resolve_left (by simp [hplace]))⟩
  | finish how hplace _ =>
    exact ⟨hsound', hcaller, fun hheld => .inr ((hreleased hheld).resolve_left (by simp [hplace]))⟩
  | wake hplace =>
    exact ⟨hsound', hcaller, fun hheld => .inr ((hreleased hheld).resolve_left (by simp [hplace]))⟩
  | cancel => exact ⟨hsound', hcaller, hreleased⟩
  | call caller hfree _ =>
    cases caller with
    | tick => exact absurd rfl he
    | owner =>
      refine ⟨hsound', by simp, fun hheld => .inl ((hreleased hheld).resolve_right ?_)⟩
      simp [hfree]
  | @stop _ caller place hcall hready _ =>
    cases caller with
    | tick => exact absurd hcall (hcaller place)
    | owner =>
      have hfinished : l.held = false → place ≠ .joining → l.place = .finished := by
        intro hheld hplace
        refine (hreleased hheld).resolve_right fun hjoining => hplace ?_
        rw [hcall] at hjoining
        cases hjoining
        rfl
      refine ⟨hsound', by cases place <;> simp [Loop.stopStep], fun hheld => ?_⟩
      cases place with
      | cancelling => exact .inl (hfinished hheld (by simp))
      | signalling => exact .inl (hfinished hheld (by simp))
      | releasing =>
        cases hbefore : l.held with
        | false => exact .inl (hfinished hbefore (by simp))
        | true => exact .inr (by simp [Loop.stopStep, hbefore])
      | joining => exact .inl (hready rfl)
      | returning => exact .inl (hfinished hheld (by simp))
  | @leave _ caller hcall =>
    have hgone : l.call ≠ some ⟨.owner, .joining⟩ := by simp [hcall]
    exact ⟨hsound', by simp [Loop.stopStep], fun hheld =>
      .inl ((hreleased hheld).resolve_right hgone)⟩

theorem finished_of_returned {events : List Event} (h : Trace Step started events l)
    (hreturned : .returned .owner ∈ events) (hcalled : .called .tick ∉ events) :
    l.place = .finished := by
  obtain ⟨before, after, u, v, rfl, hbefore, hstep, hafter⟩ := h.exists_around hreturned
  have hadmitted : ∀ e ∈ before, e ≠ .called .tick := by
    intro e he hcall
    subst hcall
    exact hcalled (List.mem_append_left _ he)
  have hv : v.Owned := (hbefore.keeps (fun _ _ _ => Owned.step) hadmitted owned_started).step
    (by simp) hstep
  have hstopped := stopped_of_returned (sound_of_trace hbefore) hstep
  have hfinished : v.place = .finished := by
    refine (hv.released hstopped.released).resolve_right ?_
    cases hstep
    simp [Loop.stopStep]
  exact hafter.invariant (fun _ _ _ h hstep => (finished_step h hstep).1) hfinished

/-! ## The protocol -/

/-- What holds at any moment of a run of a task, and what comes behind it.

When a call that stops the task has returned, no tick begins any more, the
task is inactive and cancelled, and no step of a further call changes
anything but the call itself.  When the task is cancelled, at most one
tick begins any more, and none if a tick has told the task to end.  When
the owner's call has returned and none was made from inside a tick, the
thread has finished. -/
theorem stop_protocol {before after : List Event} {l l' : Loop}
    (hbefore : Trace Step started before l) (hafter : Trace Step l after l') :
    (∀ caller, .returned caller ∈ before → .began ∉ after) ∧
    (l.cancelled = true → after.count .began ≤ 1) ∧
    (.ended .breaks ∈ before → .began ∉ after) ∧
    (.returned .owner ∈ before → .called .tick ∉ before → l.place = .finished) ∧
    (∀ caller, .returned caller ∈ before →
      l.task.isActive = false ∧ l.cancelled = true ∧
        ∀ e l'', e.isOfStop = true → Step e l l'' → l'' = { l with call := l''.call }) := by
  refine ⟨fun caller hreturned => ?_, fun hcancelled => count_began_le hcancelled hafter,
    fun hbroken => ?_, finished_of_returned hbefore, fun caller hreturned => ?_⟩
  · exact hafter.not_mem (fun _ _ _ => Stopped.step) (stopped_of_mem hbefore hreturned)
  · exact hafter.not_mem (P := fun l => l.place = .finished) (fun _ _ _ => finished_step)
      (finished_of_broken hbefore hbroken)
  · have hstopped := stopped_of_mem hbefore hreturned
    refine ⟨?_, (hstopped.sound.released hstopped.released).1, fun e l'' he hstep =>
      hstopped.call_only hstep he⟩
    simp [RepeatingTask.isActive, task, hstopped.released]

/-- A task that was stopped from inside its first tick, which still goes on. -/
def stoppedInside : Loop where
  place := .ticking
  cancelled := true
  sender := false
  signalled := true
  held := false
  begun := 1

theorem stop_from_inside :
    Trace Step started [.looked, .began, .called .tick, .stopping .tick, .stopping .tick,
      .stopping .tick, .returned .tick] stoppedInside ∧
    Trace Step stoppedInside [.ended .continues, .called .owner, .woke]
      { stoppedInside with place := .finished, call := some ⟨.owner, .cancelling⟩ } ∧
    .began ∉ [Event.ended .continues, .called .owner, .woke] ∧
    stoppedInside.task.isActive = false ∧ stoppedInside.cancelled = true := by
  have hbefore : Trace Step started [.looked, .began, .called .tick, .stopping .tick,
      .stopping .tick, .stopping .tick, .returned .tick] stoppedInside :=
    .cons (.look rfl) <| .cons (.begin rfl) <| .cons (.call .tick rfl fun _ => rfl) <|
      .cons (.stop rfl (by simp) (by simp)) <| .cons (.stop rfl (by simp) (by simp)) <|
      .cons (.stop rfl (by simp) (by simp)) <| .cons (.leave rfl) .nil
  have hafter : Trace Step stoppedInside [.ended .continues, .called .owner, .woke]
      { stoppedInside with place := .finished, call := some ⟨.owner, .cancelling⟩ } :=
    .cons (.finish .continues rfl (by simp [stoppedInside])) <|
      .cons (.call .owner rfl (by simp)) <| .cons (.wake rfl) .nil
  obtain ⟨hnone, -, -, -, hstays⟩ := stop_protocol hbefore hafter
  have hreturned : Event.returned .tick ∈ [Event.looked, .began, .called .tick, .stopping .tick,
      .stopping .tick, .stopping .tick, .returned .tick] := by decide
  obtain ⟨hinactive, hcancelled, -⟩ := hstays .tick hreturned
  exact ⟨hbefore, hafter, hnone .tick hreturned, hinactive, hcancelled⟩

end Loop

end Monitor68.RepeatingTask
