import Monitor68.Proofs.Threads.Session

/-!
# Worlds that are alike

What a session has told stays in its stream, and a polling thread that has
finished leaves a trace of how it was told to.  Nothing that the threads
do depends on either.  Two worlds resemble each other if they differ in
no more than that: one has told some events before all that both have
told, and if neither is polled then the tasks may have ended in different
ways.

A script is blind to such a difference if from alike worlds it goes the
same way to alike worlds.  Every step of the other threads keeps a
resemblance (`Resembles.withMachine`, `Resembles.poll`), and every
operation of a session is blind to it (`Oblivious`), for any engine.
-/

namespace Monitor68

open Script Files

namespace Script

variable {σ ρ α β : Type} {R : σ → σ → Prop}

/-- From alike states the script goes the same way, to alike states. -/
def Blind (R : σ → σ → Prop) : Script σ α → Prop
  | .done _ => True
  | .act ready effect next => ∀ s t, R s t →
      ready s = ready t ∧ R (effect s) (effect t) ∧ next s = next t ∧ Blind R (next s)

theorem Blind.pure (a : α) : Blind R (Pure.pure a : Script σ α) := trivial

theorem Blind.bind {c : Script σ α} {k : α → Script σ β} (h : Blind R c)
    (hk : ∀ a, Blind R (k a)) : Blind R (c >>= k) := by
  induction c with
  | done a => exact hk a
  | act ready effect next ih =>
    intro s t hst
    obtain ⟨hready, heffect, hnext, hrest⟩ := h s t hst
    exact ⟨hready, heffect, congrArg (fun c => Script.bind c k) hnext, ih s hrest⟩

theorem Blind.once {ready : σ → Bool} {f : σ → α × σ}
    (h : ∀ s t, R s t → ready s = ready t ∧ (f s).1 = (f t).1 ∧ R (f s).2 (f t).2) :
    Blind R (once ready f) := by
  intro s t hst
  obtain ⟨hready, hanswer, heffect⟩ := h s t hst
  exact ⟨hready, heffect, congrArg Script.done hanswer, trivial⟩

/-- To look at what alike states have in common. -/
theorem Blind.look {f : σ → α} (h : ∀ s t, R s t → f s = f t) : Blind R (look f) :=
  .once fun s t hst => ⟨rfl, h s t hst, hst⟩

theorem Blind.change {f : σ → σ} (h : ∀ s t, R s t → R (f s) (f t)) : Blind R (change f) :=
  .once fun s t hst => ⟨rfl, rfl, h s t hst⟩

/-- A script over a part that alike states have in common. -/
theorem Blind.within {get : σ → ρ} {set : ρ → σ → σ} (c : Script ρ α)
    (hget : ∀ s t, R s t → get s = get t) (hset : ∀ r s t, R s t → R (set r s) (set r t)) :
    Blind R (c.within get set) := by
  induction c with
  | done a => trivial
  | act ready effect next ih =>
    intro s t hst
    have hsame := hget s t hst
    have heffect : R (set (effect (get s)) s) (set (effect (get t)) t) := by
      rw [hsame]
      exact hset _ s t hst
    have hnext := congrArg (fun r => Script.within get set (next r)) hsame
    exact ⟨congrArg ready hsame, heffect, hnext, ih _⟩

end Script

namespace Session

variable {ε : Type}

/-- The session that has told some events before all that this one has, and
the record of whose polling is another. -/
def behind (before : List SessionEvent) (polling : Bool) (s : Session ε) : Session ε :=
  { s with events := before ++ s.events, polling }

theorem emit_behind (before : List SessionEvent) (polling : Bool) (s : Session ε)
    (event : SessionEvent) :
    (s.behind before polling).emit event = (s.emit event).behind before polling := by
  simp [behind, emit]

end Session

namespace World

variable {ε τ α : Type}

/-- Two worlds that differ in events told long ago, and in how a polling
thread has finished that nobody holds any more. -/
structure Resembles (before : List SessionEvent) (w w' : World ε τ) : Prop where
  session : ∃ polling, w.session = w'.session.behind before polling
  threads : w.threads = w'.threads
  task : w.task = w'.task ∨
    (w.task.phase = .finished ∧ w.task.held = false) ∧
      w'.task.phase = .finished ∧ w'.task.held = false
  place : w.task.phase = .ticking → w.place = w'.place

namespace Resembles

variable {before : List SessionEvent} {w w' : World ε τ}

/-! ## What alike worlds have in common -/

theorem machine (h : Resembles before w w') : w.machine = w'.machine := by
  obtain ⟨polling, hsession⟩ := h.session
  unfold World.machine
  rw [hsession, h.threads]
  rfl

theorem engine (h : Resembles before w w') : w.session.engine = w'.session.engine :=
  congrArg Machine.engine h.machine

theorem state (h : Resembles before w w') : w.session.state = w'.session.state := by
  obtain ⟨polling, hsession⟩ := h.session
  rw [hsession]
  rfl

theorem fresh (h : Resembles before w w') : w.session.fresh = w'.session.fresh := by
  obtain ⟨polling, hsession⟩ := h.session
  rw [hsession]
  rfl

theorem watches (h : Resembles before w w') : w.session.watches = w'.session.watches := by
  obtain ⟨polling, hsession⟩ := h.session
  rw [hsession]
  rfl

theorem phase (h : Resembles before w w') : w.task.phase = w'.task.phase := by
  rcases h.task with htask | ⟨⟨hphase, -⟩, hphase', -⟩
  · rw [htask]
  · rw [hphase, hphase']

theorem held (h : Resembles before w w') : w.task.held = w'.task.held := by
  rcases h.task with htask | ⟨⟨-, hheld⟩, -, hheld'⟩
  · rw [htask]
  · rw [hheld, hheld']

theorem isActive (h : Resembles before w w') : w.task.isActive = w'.task.isActive := by
  unfold RepeatingTask.isActive
  rw [h.held, h.phase]

theorem locked (h : Resembles before w w') : w.locked = w'.locked := by
  unfold World.locked
  rw [← h.phase]
  by_cases hticking : w.task.phase = .ticking
  · rw [h.place hticking]
  · simp [hticking]

/-- What the owner of one world sees of the session is what the owner of the
other sees, behind some events. -/
theorem snapshot (h : Resembles before w w') :
    w.snapshot = { w'.snapshot with events := before ++ w'.snapshot.events } := by
  obtain ⟨polling, hsession⟩ := h.session
  unfold World.snapshot
  rw [hsession, h.isActive]
  rfl

/-- A task that has not finished is the same in both. -/
theorem same_task (h : Resembles before w w') (hphase : w.task.phase ≠ .finished) :
    w.task = w'.task := by
  rcases h.task with htask | ⟨⟨hfinished, -⟩, -⟩
  · exact htask
  · exact absurd hfinished hphase

/-! ## What keeps worlds alike -/

theorem edited (h : Resembles before w w') (f : Session ε → Session ε)
    (hf : ∀ polling s, f (s.behind before polling) = (f s).behind before polling) :
    Resembles before { w with session := f w.session } { w' with session := f w'.session } where
  session := by
    obtain ⟨polling, hsession⟩ := h.session
    refine ⟨polling, ?_⟩
    show f w.session = _
    rw [hsession, hf]
  threads := h.threads
  task := h.task
  place := h.place

theorem withMachine (h : Resembles before w w') (m : Machine ε τ) :
    Resembles before (w.withMachine m) (w'.withMachine m) where
  session := by
    obtain ⟨polling, hsession⟩ := h.session
    exact ⟨polling, congrArg (fun s : Session ε => { s with engine := m.engine }) hsession⟩
  threads := rfl
  task := h.task
  place := h.place

/-- To change two tasks that are the same, or that have finished and stay
so. -/
theorem retasked (h : Resembles before w w') {f : RepeatingTask → RepeatingTask}
    (hended : ∀ t : RepeatingTask, t.phase = .finished → t.held = false →
      (f t).phase = .finished ∧ (f t).held = false)
    (hticking : (f w.task).phase = .ticking → w.task.phase = .ticking) :
    Resembles before { w with task := f w.task } { w' with task := f w'.task } where
  session := h.session
  threads := h.threads
  task := by
    rcases h.task with htask | ⟨⟨hphase, hheld⟩, hphase', hheld'⟩
    · exact .inl (congrArg f htask)
    · exact .inr ⟨hended _ hphase hheld, hended _ hphase' hheld'⟩
  place := fun hphase => h.place (hticking hphase)

/-- A polling thread that is told the same goes on alike. -/
theorem placed (h : Resembles before w w') (task : RepeatingTask) (place : TickPlace) :
    Resembles before { w with task, place } { w' with task, place } where
  session := h.session
  threads := h.threads
  task := .inl rfl
  place := fun _ => rfl

end Resembles

/-- The world whose session has told some events before all that it has told
here. -/
def behind (before : List SessionEvent) (polling : Bool) (w : World ε τ) : World ε τ :=
  { w with session := w.session.behind before polling }

theorem resembles_behind (before : List SessionEvent) (polling : Bool) (w : World ε τ) :
    Resembles before (w.behind before polling) w where
  session := ⟨polling, rfl⟩
  threads := rfl
  task := .inl rfl
  place := fun _ => rfl

/-- During a tick alike worlds differ in events only. -/
theorem Resembles.eq_behind {before : List SessionEvent} {w w' : World ε τ}
    (h : Resembles before w w') (hphase : w.task.phase = .ticking) :
    ∃ polling, w = w'.behind before polling := by
  have htask := h.same_task (by rw [hphase]; simp)
  obtain ⟨⟨polling, hsession⟩, hthreads, -, hplace⟩ := h
  refine ⟨polling, ?_⟩
  obtain ⟨session, threads, task, place⟩ := w
  simp only [behind, World.mk.injEq]
  exact ⟨hsession, hthreads, htask, hplace hphase⟩

section Polling

variable [Engine ε]

theorem tick_behind (before : List SessionEvent) (polling : Bool) (w : World ε τ) :
    (w.behind before polling).tick = w.tick.behind before polling := by
  have hemit := fun event => w.session.emit_behind before polling event
  unfold tick behind
  simp only
  cases w.place with
  | refreshing => rfl
  | sending view => simp only [hemit]
  | announcing => simp only [hemit]
  | leaving => rfl
  | checking =>
    have hengine : (w.session.behind before polling).engine = w.session.engine := rfl
    simp only [hengine]
    split <;> rfl
  | closing =>
    have hstate : (w.session.behind before polling).state = w.session.state := rfl
    simp only [hstate]
    split <;> rfl

namespace Resembles

variable {before : List SessionEvent} {w w' : World ε τ}

/-- A step of the polling thread. -/
theorem poll (h : Resembles before w w') : Resembles before w.poll w'.poll := by
  have hsame := h.phase
  unfold World.poll
  cases hphase : w.task.phase with
  | finished =>
    rw [← hsame, hphase]
    exact h
  | ticking =>
    obtain ⟨polling, rfl⟩ := h.eq_behind hphase
    rw [← hsame, hphase, tick_behind]
    exact resembles_behind _ _ _
  | waiting =>
    have htask := h.same_task (by rw [hphase]; simp)
    rw [← hsame, hphase]
    refine ⟨h.session, h.threads, .inl (congrArg RepeatingTask.wake htask), fun hticking => ?_⟩
    have hwoken : (if w.task.signalled then TaskPhase.finished else .testing) = .ticking := hticking
    split at hwoken <;> cases hwoken
  | testing =>
    have htask := h.same_task (by rw [hphase]; simp)
    rw [← hsame, hphase, htask]
    exact h.placed _ _

end Resembles

end Polling

/-! ## What the owner does -/

section Parts

variable {before : List SessionEvent}

/-- A script that goes the same way in alike worlds. -/
abbrev Oblivious (before : List SessionEvent) (c : Script (World ε τ) α) : Prop :=
  Blind (Resembles before) c

/-- What one sees of a session behind some events. -/
theorem look_oblivious (f : Session ε → α)
    (hf : ∀ polling s, f (s.behind before polling) = f s) :
    Oblivious before (look fun w : World ε τ => f w.session) := by
  refine .look fun w w' h => ?_
  obtain ⟨polling, hsession⟩ := h.session
  rw [hsession, hf]

theorem edit_oblivious {f : Session ε → Session ε}
    (hf : ∀ polling s, f (s.behind before polling) = (f s).behind before polling) :
    Oblivious before (edit f : Script (World ε τ) Unit) :=
  .change fun _ _ h => h.edited f hf

theorem emit_oblivious (event : SessionEvent) :
    Oblivious before (edit fun s => s.emit event : Script (World ε τ) Unit) :=
  edit_oblivious fun polling s => s.emit_behind before polling event

theorem onMachine_oblivious (c : Script (Machine ε τ) α) : Oblivious before (onMachine c) :=
  .within c (fun _ _ h => h.machine) fun m _ _ h => h.withMachine m

theorem fail_oblivious (error : SessionError) :
    Oblivious before (fail error : Script (World ε τ) (Except SessionError α)) :=
  .bind (emit_oblivious _) fun _ => .pure _

theorem readState_oblivious : Oblivious before (readState : Script (World ε τ) SessionState) :=
  .once fun _ _ h => ⟨congrArg (!·) h.locked, h.state, h⟩

theorem enter_oblivious (state : SessionState) :
    Oblivious before (enter state : Script (World ε τ) Unit) := by
  refine .bind (.once fun w w' h => ⟨congrArg (!·) h.locked, h.state, ?_⟩) fun previous => ?_
  · exact h.edited (fun s => { s with state }) fun _ _ => rfl
  split
  · exact .pure ()
  · exact emit_oblivious _

theorem stopPolling_oblivious : Oblivious before (stopPolling : Script (World ε τ) Unit) := by
  refine .bind (.look fun _ _ h => h.held) fun held => ?_
  split
  · refine .bind (.change fun _ _ h => h.retasked (fun _ hphase hheld => ⟨hphase, hheld⟩) id)
      fun _ => ?_
    refine .bind (.change fun _ _ h => h.retasked (fun _ hphase _ => ⟨hphase, rfl⟩) id)
      fun _ => ?_
    exact .once fun w w' h => ⟨by rw [h.phase], rfl, h⟩
  · exact .pure ()

theorem onEngine_oblivious (f : ε → Except EngineError ε) :
    Oblivious before (onEngine f : Script (World ε τ) _) := by
  refine .once fun w w' h => ⟨rfl, ?_⟩
  rw [h.engine]
  cases f w'.session.engine with
  | error error => exact ⟨rfl, h⟩
  | ok engine => exact ⟨rfl, h.edited (fun s => { s with engine }) fun _ _ => rfl⟩

theorem attach_oblivious (files : FileSystem) (path : String) (importing : Bool) :
    Oblivious before (World.attach files path importing : Script (World ε τ) _) := by
  unfold World.attach
  split
  · refine .bind (edit_oblivious fun _ _ => rfl) fun _ => ?_
    exact .bind (emit_oblivious _) fun _ => .pure _
  · refine .bind (edit_oblivious fun _ _ => rfl) fun _ => ?_
    refine .bind (edit_oblivious fun _ _ => rfl) fun _ => ?_
    exact .bind (emit_oblivious _) fun _ => .pure _

variable [Threaded ε τ]

theorem powerDown_oblivious : Oblivious before (World.powerDown : Script (World ε τ) _) := by
  refine .bind stopPolling_oblivious fun _ => .bind (onMachine_oblivious _) fun answer => ?_
  split
  · exact .pure _
  · exact fail_oblivious _
  · exact .pure _

theorem powerDownTo_oblivious (state : SessionState) :
    Oblivious before (World.powerDownTo state : Script (World ε τ) _) := by
  refine .bind powerDown_oblivious fun answer => ?_
  split
  · exact .pure _
  · exact .bind (enter_oblivious _) fun _ => .pure _

theorem reset_oblivious : Oblivious before (World.reset : Script (World ε τ) _) := by
  refine .bind powerDown_oblivious fun answer => ?_
  split
  · exact .pure _
  · refine .bind (.change fun w w' h => ?_) fun _ => ?_
    · rw [h.fresh]
      exact h.withMachine _
    refine .bind (edit_oblivious fun _ _ => rfl) fun _ => ?_
    refine .bind (edit_oblivious fun _ _ => rfl) fun _ => ?_
    exact .bind (enter_oblivious _) fun _ => .pure _

end Parts

section Operations

variable {before : List SessionEvent} [Engine ε]

theorem setBreakpoint_oblivious (address : UInt32) :
    Oblivious before (World.setBreakpoint address : Script (World ε τ) _) := by
  refine .bind (look_oblivious (·.breakpoints.nextFreeSlot) fun _ _ => rfl) fun slot => ?_
  refine .bind (onEngine_oblivious _) fun answer => ?_
  split
  · exact .pure _
  · exact .bind (edit_oblivious fun _ _ => rfl) fun _ => .pure _

theorem placeRecords_oblivious (records : List SRecord.Record) :
    Oblivious before (placeRecords records : Script (World ε τ) _) := by
  induction records with
  | nil => exact .pure _
  | cons r rest ih =>
    cases r with
    | start address => exact ih
    | data address payload =>
      refine .bind (.once fun w w' h => ⟨rfl, ?_, ?_⟩) fun answer => ?_
      · rw [h.engine]
      · exact h.edited
          (fun s => { s with engine := (Engine.writeBlock s.engine address payload).1 })
          fun _ _ => rfl
      · split
        · exact .pure _
        · exact ih

variable [Threaded ε τ]

theorem enterProgram_oblivious (entry : EntryPoint) (stack : UInt32) :
    Oblivious before (enterProgram entry stack : Script (World ε τ) _) := by
  refine .bind (edit_oblivious fun _ _ => rfl) fun _ => ?_
  refine .bind (edit_oblivious fun _ _ => rfl) fun _ => ?_
  split
  · refine .bind (setBreakpoint_oblivious _) fun answer => ?_
    split
    · exact .pure _
    · exact onMachine_oblivious _
  · exact onMachine_oblivious _

theorem step_oblivious : Oblivious before (World.step : Script (World ε τ) _) := by
  refine .bind (look_oblivious (Engine.powered ·.engine) fun _ _ => rfl) fun powered => ?_
  split
  · refine .bind (look_oblivious (Engine.running ·.engine) fun _ _ => rfl) fun running => ?_
    split
    · exact fail_oblivious _
    · refine .bind (onMachine_oblivious _) fun answer => ?_
      split
      · exact fail_oblivious _
      · refine .bind (enter_oblivious _) fun _ => ?_
        refine .bind (edit_oblivious fun _ _ => rfl) fun _ => ?_
        exact .bind (look_oblivious (fun s => View.of s.engine s.listing s.watches.watches)
          fun _ _ => rfl) fun view => .pure _
  · exact fail_oblivious _

theorem run_oblivious : Oblivious before (World.run : Script (World ε τ) _) := by
  refine .bind (look_oblivious (Engine.powered ·.engine) fun _ _ => rfl) fun powered => ?_
  split
  · refine .bind (.look fun _ _ h => h.isActive) fun active => ?_
    split
    · exact .pure _
    · refine .bind (onMachine_oblivious _) fun answer => ?_
      split
      · exact fail_oblivious _
      · refine .bind (enter_oblivious _) fun _ => .bind (.change fun _ _ h => ?_) fun _ => .pure _
        exact ⟨h.session, h.threads, .inl rfl, fun hticking => by cases hticking⟩
  · exact fail_oblivious _

theorem loadImage_oblivious (settings : Settings) (files : FileSystem) (path : String) :
    Oblivious before (World.loadImage settings files path : Script (World ε τ) _) := by
  unfold World.loadImage
  split
  · exact fail_oblivious _
  · split
    · exact fail_oblivious _
    · refine .bind (placeRecords_oblivious _) fun placed => ?_
      split
      · exact fail_oblivious _
      · refine .bind (enterProgram_oblivious _ _) fun entered => ?_
        split
        · exact fail_oblivious _
        · refine .bind (edit_oblivious fun _ _ => rfl) fun _ => ?_
          refine .bind (emit_oblivious _) fun _ => ?_
          exact .bind (enter_oblivious _) fun _ => .pure _

theorem load_oblivious (settings : Settings) (files : FileSystem) (path : String) :
    Oblivious before (World.load settings files path : Script (World ε τ) _) := by
  refine .bind readState_oblivious fun state => ?_
  split
  · exact loadImage_oblivious settings files path
  · refine .bind reset_oblivious fun answer => ?_
    split
    · exact .pure _
    · exact loadImage_oblivious settings files path

theorem openSource_oblivious (settings : Settings) (files : FileSystem) (source : String)
    (importing : Bool) :
    Oblivious before
      (World.openSource settings files source importing : Script (World ε τ) _) := by
  unfold World.openSource
  split
  · exact fail_oblivious _
  · refine .bind (load_oblivious settings files _) fun answer => ?_
    split
    · exact .pure _
    · exact .bind (attach_oblivious files _ importing) fun _ => .pure _

omit [Threaded ε τ] in
theorem addBreakpoint_oblivious (address : UInt32) :
    Oblivious before (World.addBreakpoint address : Script (World ε τ) _) := by
  refine .bind (setBreakpoint_oblivious address) fun answer => ?_
  split
  · exact fail_oblivious _
  · exact .pure _

end Operations

end World

end Monitor68
