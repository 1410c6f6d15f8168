import Monitor68.Proofs.Threads.Likeness

/-!
# Conversations with a session

A `Request` tells its outcome and keeps the rest of its answer to itself.
Here the owner of a session hears everything: the entry point of a load,
the view after a step, the id of a variable, and what it may merely look
at.  A conversation is a list of inquiries, one after the other, with a
reply to each.

Which thread moves when is a list of turns.  `play` is deterministic: the
same turns lead from the same world to the same world, and a thread that
cannot move when it is its turn lets it pass.  The schedules are all
interleavings (`leads_iff_exists_play`).
-/

namespace Monitor68

open Script Files Session

/-! ## Inquiries and replies -/

/-- What the owner of a session can ask. -/
inductive Inquiry where
  | request (request : Request)
  /-- The present view; the stored values of the variables stay. -/
  | view
  | dump (center : UInt32) (rows : Nat)
  /-- The watched variables, all brought up to date. -/
  | watches
  | state
  | breakpoints
  | listing

/-- What the owner of a session hears. -/
inductive Reply where
  | loaded (answer : Except SessionError EntryPoint)
  | opened (answer : Except SessionError (EntryPoint × Attachment))
  | attached (attachment : Attachment)
  | stepped (answer : Except SessionError View)
  | performed (answer : Except SessionError Unit)
  | broken (answer : Except SessionError Breakpoint)
  /-- The id of a new variable. -/
  | watched (id : UInt32)
  /-- Whether there was a variable to be changed. -/
  | changed (found : Bool)
  | view (view : View)
  | rows (rows : List DumpRow)
  | watches (watches : List Watch)
  | state (state : SessionState)
  | breakpoints (breakpoints : List Breakpoint)
  | listing (listing : Option Listing)

/-- The reply to a change of the watched variables. -/
def Session.WatchEdit.reply (w : WatchList) : WatchEdit → Reply
  | .add address name encoding => .watched (w.add address name encoding).1
  | .remove id => .changed (w.remove id).1
  | .clear => .performed (.ok ())
  | .setEncoding id encoding => .changed (w.setEncoding id encoding).1

namespace World

variable {ε τ : Type} [Engine ε] [Threaded ε τ]

/-- A request, with all that is answered to it. -/
def respond (settings : Settings) : Request → Script (World ε τ) Reply
  | .load files path => do return .loaded (← load settings files path)
  | .openSource files source importing => do
    return .opened (← openSource settings files source importing)
  | .attach files path importing => do return .attached (← attach files path importing)
  | .step => do return .stepped (← step)
  | .run => do return .performed (← run)
  | .stop => do return .performed (← powerDownTo .halted)
  | .powerOff => do return .performed (← powerDownTo .poweredOff)
  | .reset => do return .performed (← reset)
  | .addBreakpoint address => do return .broken (← addBreakpoint address)
  | .editWatches update =>
    atomically fun w => (update.reply w.session.watches,
      { w with session := { w.session with watches := update.apply w.session.watches } })
  | .refreshWatches => do
    edit Session.refreshWatches
    return .performed (.ok ())

/-- What the owner does on an inquiry.  Memory and all of the session that an
inquiry looks at move with the owner alone, and of the registers each looks
at once, so that a look is one step. -/
def reply (settings : Settings) : Inquiry → Script (World ε τ) Reply
  | .request request => respond settings request
  | .view => look fun w => .view w.session.view
  | .dump center rows => look fun w => .rows (w.session.dump center rows)
  | .watches => atomically fun w =>
    let s := w.session.refreshWatches
    (.watches s.watches.watches, { w with session := s })
  | .state => do return .state (← readState)
  | .breakpoints => look fun w => .breakpoints w.session.breakpoints.list
  | .listing => look fun w => .listing w.session.listing

/-- One inquiry after the other. -/
def converse (settings : Settings) : List Inquiry → Script (World ε τ) (List Reply)
  | [] => pure []
  | inquiry :: rest => do
    let first ← reply settings inquiry
    let others ← converse settings rest
    return first :: others

end World

/-! ## Schedules -/

/-- Whose turn it is. -/
inductive Turn where
  | owner
  /-- The thread of the engine with this number. -/
  | engine (thread : Nat)
  | poller

/-- The world, and what the owner has left to do, after a turn. -/
def Turn.take {α : Type} (y : Scene × Script Scene α) : Turn → Scene × Script Scene α
  | .owner =>
    match y.2 with
    | .done _ => y
    | .act ready effect next => if ready y.1 then (effect y.1, next y.1) else y
  | .engine thread =>
    match y.1.threads.phases[thread]? with
    | none => y
    | some phase =>
      if phase = .finished then y
      else (y.1.withMachine (Simulator.Manned.moved y.1.machine thread phase), y.2)
  | .poller => (y.1.poll, y.2)

/-- The same after some turns. -/
def play {α : Type} (y : Scene × Script Scene α) (turns : List Turn) : Scene × Script Scene α :=
  turns.foldl Turn.take y

section Schedules

variable {α : Type} {c : Script Scene α} {w z : Scene} {a : α}

theorem play_cons (y : Scene × Script Scene α) (turn : Turn) (turns : List Turn) :
    play y (turn :: turns) = play (turn.take y) turns := rfl

/-- A turn leads on as the thread whose turn it is moves. -/
theorem Turn.leads (turn : Turn) (h : Leads World.Moves (turn.take (w, c)).2
    (turn.take (w, c)).1 a z) : Leads World.Moves c w a z := by
  cases turn with
  | owner =>
    cases c with
    | done answer => exact h
    | act ready effect next =>
      simp only [take] at h
      split at h
      · rename_i hready
        exact .acted hready h
      · exact h
  | engine thread =>
    simp only [take] at h
    split at h
    · exact h
    · rename_i phase hphase
      split at h
      · exact h
      · rename_i hlive
        exact .moved (.engine ⟨thread, phase, hphase, hlive, rfl⟩) h
  | poller =>
    by_cases hphase : w.task.phase = .finished
    · have hstill : w.poll = w := by rw [World.poll, hphase]
      simpa only [take, hstill] using h
    · exact .moved (.poll hphase) h

/-- What the owner comes to among any moves of the other threads it comes to
by some schedule, and the other way round. -/
theorem leads_iff_exists_play :
    Leads World.Moves c w a z ↔ ∃ turns, play (w, c) turns = (z, .done a) := by
  constructor
  · intro h
    induction h with
    | done => exact ⟨[], rfl⟩
    | @moved c w t u a hmove _ ih =>
      obtain ⟨turns, hturns⟩ := ih
      cases hmove with
      | poll hphase => exact ⟨.poller :: turns, hturns⟩
      | engine hmove =>
        obtain ⟨thread, phase, hphase, hlive, rfl⟩ := hmove
        refine ⟨.engine thread :: turns, ?_⟩
        have hphase' : w.threads.phases[thread]? = some phase := hphase
        simpa [play_cons, Turn.take, hphase', hlive] using hturns
    | @acted ready effect next w u a hready _ ih =>
      obtain ⟨turns, hturns⟩ := ih
      refine ⟨.owner :: turns, ?_⟩
      simpa [play_cons, Turn.take, hready] using hturns
  · intro h
    obtain ⟨turns, hturns⟩ := h
    induction turns generalizing w c with
    | nil =>
      cases hturns
      exact .done
    | cons turn turns ih => exact turn.leads (ih hturns)

end Schedules

/-! ## Conversations in alike worlds -/

namespace World

section Replies

variable {ε τ : Type} [Engine ε] [Threaded ε τ] {before : List SessionEvent}

theorem respond_oblivious (settings : Settings) (request : Request) :
    Oblivious before (respond settings request : Script (World ε τ) Reply) := by
  cases request with
  | load files path => exact .bind (load_oblivious _ _ _) fun _ => .pure _
  | openSource files source importing =>
    exact .bind (openSource_oblivious _ _ _ _) fun _ => .pure _
  | attach files path importing => exact .bind (attach_oblivious _ _ _) fun _ => .pure _
  | step => exact .bind step_oblivious fun _ => .pure _
  | run => exact .bind run_oblivious fun _ => .pure _
  | stop => exact .bind (powerDownTo_oblivious _) fun _ => .pure _
  | powerOff => exact .bind (powerDownTo_oblivious _) fun _ => .pure _
  | reset => exact .bind reset_oblivious fun _ => .pure _
  | addBreakpoint address => exact .bind (addBreakpoint_oblivious _) fun _ => .pure _
  | editWatches update =>
    refine .once fun w w' h => ⟨rfl, ?_, ?_⟩
    · rw [h.watches]
    · exact h.edited (fun s => { s with watches := update.apply s.watches }) fun _ _ => rfl
  | refreshWatches => exact .bind (edit_oblivious fun _ _ => rfl) fun _ => .pure _

theorem reply_oblivious (settings : Settings) (inquiry : Inquiry) :
    Oblivious before (reply settings inquiry : Script (World ε τ) Reply) := by
  cases inquiry with
  | request request => exact respond_oblivious settings request
  | view => exact look_oblivious (fun s => Reply.view s.view) fun _ _ => rfl
  | dump center rows =>
    exact look_oblivious (fun s => Reply.rows (s.dump center rows)) fun _ _ => rfl
  | watches =>
    refine .once fun w w' h => ⟨rfl, ?_, h.edited Session.refreshWatches fun _ _ => rfl⟩
    simp only [Session.refreshWatches, h.watches, h.engine]
  | state => exact .bind readState_oblivious fun _ => .pure _
  | breakpoints =>
    exact look_oblivious (fun s => Reply.breakpoints s.breakpoints.list) fun _ _ => rfl
  | listing => exact look_oblivious (fun s => Reply.listing s.listing) fun _ _ => rfl

theorem converse_oblivious (settings : Settings) (inquiries : List Inquiry) :
    Oblivious before (converse settings inquiries : Script (World ε τ) (List Reply)) := by
  induction inquiries with
  | nil => exact .pure []
  | cons inquiry rest ih =>
    exact .bind (reply_oblivious settings inquiry) fun _ => .bind ih fun _ => .pure _

end Replies

variable {α : Type} {before : List SessionEvent} {w w' : Scene} {c : Script Scene α}

/-- The step lemma: a turn leads from alike worlds to alike worlds, and leaves
the owner the same to do. -/
theorem Resembles.take (h : Resembles before w w') (hc : Oblivious before c) (turn : Turn) :
    Resembles before (turn.take (w, c)).1 (turn.take (w', c)).1 ∧
      (turn.take (w, c)).2 = (turn.take (w', c)).2 ∧ Oblivious before (turn.take (w, c)).2 := by
  cases turn with
  | poller => exact ⟨h.poll, rfl, hc⟩
  | owner =>
    cases c with
    | done answer => exact ⟨h, rfl, hc⟩
    | act ready effect next =>
      obtain ⟨hready, heffect, hnext, hrest⟩ := hc w w' h
      simp only [Turn.take, ← hready]
      split
      · exact ⟨heffect, hnext, hrest⟩
      · exact ⟨h, rfl, hc⟩
  | engine thread =>
    simp only [Turn.take, ← h.threads, ← h.machine]
    split
    · exact ⟨h, rfl, hc⟩
    · split
      · exact ⟨h, rfl, hc⟩
      · exact ⟨h.withMachine _, rfl, hc⟩

/-- The run lemma. -/
theorem Resembles.play (h : Resembles before w w') (hc : Oblivious before c)
    (turns : List Turn) :
    Resembles before (play (w, c) turns).1 (play (w', c) turns).1 ∧
      (Monitor68.play (w, c) turns).2 = (Monitor68.play (w', c) turns).2 := by
  induction turns generalizing w w' c with
  | nil => exact ⟨h, rfl⟩
  | cons turn turns ih =>
    obtain ⟨hworlds, hrest, hblind⟩ := h.take hc turn
    have hplay := ih hworlds hblind
    have hstart : turn.take (w', c) = ((turn.take (w', c)).1, (turn.take (w, c)).2) :=
      Prod.ext rfl hrest.symm
    rw [play_cons, play_cons, hstart]
    exact hplay

end World

end Monitor68
