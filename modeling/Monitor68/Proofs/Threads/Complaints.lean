import Monitor68.Proofs.Session.Complaints
import Monitor68.Proofs.Threads.Reliance
import Monitor68.Proofs.Threads.Agreement

/-!
# Errors are told once

The observers of a session hear of an error from the operation that fails
with it, whatever the other threads tell in the meantime.  The polling
thread tells of views and of states and never complains, and the threads
of the engine tell nothing.  So the complaints between the call of an
operation and its answer are those of the operation: one if it fails, in
the words of the error, and none if it succeeds.

This holds for any engine, also for one that refuses to work, and for any
files.
-/

namespace Monitor68

open Script Files

namespace World

variable {ε τ : Type} [Engine ε]

/-- The polling thread does not complain. -/
theorem poll_tells (w : World ε τ) : Continues w.session.events w.poll.session.events [] := by
  obtain ⟨state, watches, told, task, place, hpoll, -, htells, -⟩ := w.poll_frame
  rw [hpoll]
  refine ⟨told, rfl, ?_⟩
  cases htells <;> rfl

theorem Moves.tells [Threaded ε τ] {w w' : World ε τ} (h : Moves w w') :
    Continues w.session.events w'.session.events [] := by
  cases h with
  | engine hmove => exact .refl _
  | poll hphase => exact w.poll_tells

end World

namespace Telling

/-- The other threads do not complain. -/
def Moves (events events' : List SessionEvent) : Prop := Continues events events' []

variable {ε τ α β : Type} [Engine ε] [Threaded ε τ]

/-- The stream of events as a part of a world. -/
def aspect : Aspect (World.Moves (ε := ε) (τ := τ)) (List SessionEvent) where
  view w := w.session.events
  Moves := Moves
  Yields _ _ := True
  moves := World.Moves.tells
  yields_refl _ := trivial

/-- Since some moment the given complaints were told. -/
def since (before : List SessionEvent) (said : List String) : Reliable Moves where
  holds events := Continues before events said
  stable := by
    intro events events' h hmove
    simpa using h.trans hmove

/-- A script that does not complain. -/
def Quiet (c : Script (World ε τ) α) : Prop :=
  ∀ before, aspect.Upholds (since before []) c fun _ => since before []

/-- A script that complains of what it answers. -/
def Honest (c : Script (World ε τ) (Except SessionError α)) : Prop :=
  ∀ before, aspect.Upholds (since before []) c fun answer => since before (grievances answer)

open World Aspect

section Rules

variable {c : Script (World ε τ) α}

theorem Quiet.pure (a : α) : Quiet (Pure.pure a : Script (World ε τ) α) :=
  fun _ => Upholds.pure fun _ => id

theorem Quiet.bind {k : α → Script (World ε τ) β} (h : Quiet c) (hk : ∀ a, Quiet (k a)) :
    Quiet (c >>= k) :=
  fun before => Upholds.bind (h before) fun a => hk a before

/-- A step that does not touch the stream. -/
theorem Quiet.once {ready : World ε τ → Bool} {f : World ε τ → α × World ε τ}
    (hf : ∀ w, (f w).2.session.events = w.session.events) : Quiet (Script.once ready f) :=
  fun _ => Upholds.silent hf

theorem Honest.ok (a : α) :
    Honest (Pure.pure (.ok a) : Script (World ε τ) (Except SessionError α)) :=
  fun _ => Upholds.pure fun _ => id

theorem Quiet.honestly {k : α → Script (World ε τ) (Except SessionError β)} (h : Quiet c)
    (hk : ∀ a, Honest (k a)) : Honest (c >>= k) :=
  fun before => Upholds.bind (h before) fun a => hk a before

/-- An error of a part is handed on without another word. -/
theorem Honest.andThen {c : Script (World ε τ) (Except SessionError α)}
    {k : Except SessionError α → Script (World ε τ) (Except SessionError β)} (h : Honest c)
    (herror : ∀ error, k (.error error) = Pure.pure (.error error))
    (hok : ∀ a, Honest (k (.ok a))) : Honest (c >>= k) := by
  refine fun before => Upholds.bind (h before) fun answer => ?_
  cases answer with
  | error error =>
    rw [herror]
    exact Upholds.pure fun _ => id
  | ok a => exact hok a before

theorem fail_honest (error : SessionError) :
    Honest (World.fail error : Script (World ε τ) (Except SessionError α)) := by
  refine fun before => Upholds.bind (M := fun _ => since before [error.message])
    (Upholds.once fun w hw _ => ⟨trivial, ?_⟩) fun _ => Upholds.pure fun _ => id
  have hcontinues : Continues before w.session.events [] := hw
  exact hcontinues.complaining error.message

end Rules

/-! ## Parts of the operations -/

theorem edit_quiet {f : Session ε → Session ε} (hf : ∀ s, (f s).events = s.events) :
    Quiet (edit f : Script (World ε τ) Unit) :=
  .once fun w => hf w.session

/-- To tell something that is no complaint. -/
theorem emit_quiet {event : SessionEvent} (h : event.complaint? = none) :
    Quiet (edit fun s => s.emit event : Script (World ε τ) Unit) := by
  refine fun before => Upholds.once fun w hw _ => ⟨trivial, ?_⟩
  have hcontinues : Continues before w.session.events [] := hw
  exact hcontinues.silently h

theorem onMachine_quiet (c : Script (Machine ε τ) α) : Quiet (onMachine c) :=
  fun _ => Upholds.beside (fun _ _ => rfl) fun _ _ => rfl

theorem onEngine_quiet (f : ε → Except EngineError ε) :
    Quiet (onEngine f : Script (World ε τ) _) := by
  refine .once fun w => ?_
  simp only
  split <;> rfl

theorem enter_quiet (state : SessionState) : Quiet (enter state : Script (World ε τ) Unit) := by
  refine Quiet.bind (.once fun _ => rfl) fun previous => ?_
  split
  · exact .pure ()
  · exact emit_quiet rfl

theorem stopPolling_quiet : Quiet (stopPolling : Script (World ε τ) Unit) := by
  refine Quiet.bind (.once fun _ => rfl) fun held => ?_
  split
  · refine Quiet.bind (.once fun _ => rfl) fun _ => ?_
    exact Quiet.bind (.once fun _ => rfl) fun _ => .once fun _ => rfl
  · exact .pure ()

theorem setBreakpoint_quiet (address : UInt32) :
    Quiet (World.setBreakpoint address : Script (World ε τ) _) := by
  refine Quiet.bind (.once fun _ => rfl) fun slot => ?_
  refine Quiet.bind (onEngine_quiet _) fun answer => ?_
  split
  · exact .pure _
  · exact Quiet.bind (edit_quiet fun _ => rfl) fun _ => .pure _

theorem placeRecords_quiet (records : List SRecord.Record) :
    Quiet (placeRecords records : Script (World ε τ) _) := by
  induction records with
  | nil => exact .pure _
  | cons r rest ih =>
    cases r with
    | start address => exact ih
    | data address payload =>
      refine Quiet.bind (.once fun _ => rfl) fun answer => ?_
      split
      · exact .pure _
      · exact ih

theorem enterProgram_quiet (entry : EntryPoint) (stack : UInt32) :
    Quiet (enterProgram entry stack : Script (World ε τ) _) := by
  refine Quiet.bind (edit_quiet fun _ => rfl) fun _ => ?_
  refine Quiet.bind (edit_quiet fun _ => rfl) fun _ => ?_
  split
  · refine Quiet.bind (setBreakpoint_quiet _) fun answer => ?_
    split
    · exact .pure _
    · exact onMachine_quiet _
  · exact onMachine_quiet _

theorem powerDown_honest : Honest (World.powerDown : Script (World ε τ) _) := by
  refine stopPolling_quiet.honestly fun _ => (onMachine_quiet _).honestly fun answer => ?_
  split
  · exact .ok ()
  · exact fail_honest _
  · exact .ok ()

/-! ## The operations -/

theorem step_honest : Honest (World.step : Script (World ε τ) _) := by
  refine Quiet.honestly (.once fun _ => rfl) fun powered => ?_
  split
  · refine Quiet.honestly (.once fun _ => rfl) fun running => ?_
    split
    · exact fail_honest _
    · refine (onMachine_quiet _).honestly fun answer => ?_
      split
      · exact fail_honest _
      · refine (enter_quiet _).honestly fun _ => ?_
        refine Quiet.honestly (edit_quiet fun _ => rfl) fun _ => ?_
        exact Quiet.honestly (.once fun _ => rfl) fun view => .ok view
  · exact fail_honest _

theorem run_honest : Honest (World.run : Script (World ε τ) _) := by
  refine Quiet.honestly (.once fun _ => rfl) fun powered => ?_
  split
  · refine Quiet.honestly (.once fun _ => rfl) fun active => ?_
    split
    · exact .ok ()
    · refine (onMachine_quiet _).honestly fun answer => ?_
      split
      · exact fail_honest _
      · refine (enter_quiet _).honestly fun _ => ?_
        exact Quiet.honestly (.once fun _ => rfl) fun _ => .ok ()
  · exact fail_honest _

theorem powerDownTo_honest (state : SessionState) :
    Honest (World.powerDownTo state : Script (World ε τ) _) :=
  powerDown_honest.andThen (fun _ => rfl) fun _ => (enter_quiet _).honestly fun _ => .ok ()

theorem reset_honest : Honest (World.reset : Script (World ε τ) _) := by
  refine powerDown_honest.andThen (fun _ => rfl) fun _ => ?_
  refine Quiet.honestly (.once fun _ => rfl) fun _ => ?_
  refine Quiet.honestly (edit_quiet fun _ => rfl) fun _ => ?_
  refine Quiet.honestly (edit_quiet fun _ => rfl) fun _ => ?_
  exact (enter_quiet _).honestly fun _ => .ok ()

theorem loadImage_honest (settings : Settings) (files : FileSystem) (path : String) :
    Honest (World.loadImage settings files path : Script (World ε τ) _) := by
  unfold World.loadImage
  split
  · exact fail_honest _
  · split
    · exact fail_honest _
    · refine (placeRecords_quiet _).honestly fun placed => ?_
      split
      · exact fail_honest _
      · refine (enterProgram_quiet _ _).honestly fun entered => ?_
        split
        · exact fail_honest _
        · refine Quiet.honestly (edit_quiet fun _ => rfl) fun _ => ?_
          refine Quiet.honestly (emit_quiet rfl) fun _ => ?_
          exact (enter_quiet _).honestly fun _ => .ok _

theorem load_honest (settings : Settings) (files : FileSystem) (path : String) :
    Honest (World.load settings files path : Script (World ε τ) _) := by
  refine Quiet.honestly (.once fun _ => rfl) fun state => ?_
  split
  · exact loadImage_honest settings files path
  · exact reset_honest.andThen (fun _ => rfl) fun _ => loadImage_honest settings files path

theorem attach_quiet (files : FileSystem) (path : String) (importing : Bool) :
    Quiet (World.attach files path importing : Script (World ε τ) _) := by
  unfold World.attach
  split
  · refine Quiet.bind (edit_quiet fun _ => rfl) fun _ => ?_
    exact Quiet.bind (emit_quiet rfl) fun _ => .pure _
  · refine Quiet.bind (edit_quiet fun _ => rfl) fun _ => ?_
    refine Quiet.bind (edit_quiet fun _ => rfl) fun _ => ?_
    exact Quiet.bind (emit_quiet rfl) fun _ => .pure _

theorem openSource_honest (settings : Settings) (files : FileSystem) (source : String)
    (importing : Bool) :
    Honest (World.openSource settings files source importing : Script (World ε τ) _) := by
  unfold World.openSource
  split
  · exact fail_honest _
  · refine (load_honest settings files _).andThen (fun _ => rfl) fun entry => ?_
    exact (attach_quiet files _ importing).honestly fun _ => .ok _

theorem addBreakpoint_honest (address : UInt32) :
    Honest (World.addBreakpoint address : Script (World ε τ) _) := by
  refine (setBreakpoint_quiet address).honestly fun answer => ?_
  split
  · exact fail_honest _
  · exact .ok _

/-- Every request complains of what it answers. -/
theorem script_honest (settings : Settings) (request : Session.Request) :
    Honest (script settings request : Script (World ε τ) _) := by
  have hforget : ∀ {γ : Type} {c : Script (World ε τ) (Except SessionError γ)}, Honest c →
      Honest (forget c) := fun h => h.andThen (fun _ => rfl) fun _ => .ok ()
  cases request with
  | load files path => exact hforget (load_honest _ _ _)
  | openSource files source importing => exact hforget (openSource_honest _ _ _ _)
  | attach files path importing => exact (attach_quiet _ _ _).honestly fun _ => .ok ()
  | step => exact hforget step_honest
  | run => exact run_honest
  | stop => exact powerDownTo_honest .halted
  | powerOff => exact powerDownTo_honest .poweredOff
  | reset => exact reset_honest
  | addBreakpoint address => exact hforget (addBreakpoint_honest address)
  | editWatches update => exact Quiet.honestly (edit_quiet fun _ => rfl) fun _ => .ok ()
  | refreshWatches => exact Quiet.honestly (edit_quiet fun _ => rfl) fun _ => .ok ()

end Telling

namespace World

variable {ε τ : Type} [Engine ε] [Threaded ε τ]

/-- The operations tell each error that they answer with once, in its own
words, and no other, both taken as a whole and among any moves of the other
threads. -/
theorem errors_told_once (request : Session.Request) :
    (∀ s : Session ε, ∃ told, (request.perform s).2.events = s.events ++ told ∧
      complaints told = grievances (request.perform s).1) ∧
    ∀ (settings : Settings) {w w' : World ε τ} {answer : Except SessionError Unit},
      Leads Moves (script settings request) w answer w' →
        ∃ told, w'.session.events = w.session.events ++ told ∧
          complaints told = grievances answer := by
  refine ⟨fun s => s.perform_tells request, fun settings {w w' answer} hleads => ?_⟩
  have hhonest := Telling.script_honest (ε := ε) (τ := τ) settings request w.session.events w
  exact (hhonest (.refl _)).of_leads hleads

/-- Files of which none is there. -/
def noFiles : FileSystem where
  openFile _ := .error .notFound
  isFile _ := false
  obstacle _ := none

/-- A session that has a program starts over before it finds that there is no
other one to load. -/
theorem missing_image_told_once : ∃ w w' : Scene, System.Reachable ⟨w, .idle⟩ ∧
    Leads Moves (script w.session.settings (.load noFiles "")) w
      (.error (.load (.file .notFound))) w' ∧
    ∃ told, w'.session.events = w.session.events ++ told ∧
      complaints told = [SessionError.message (.load (.file .notFound))] := by
  obtain ⟨w, hw, h⟩ := System.reachable_after {} 0x8010 [.asked (.load System.emptyFiles "")]
  have hrest : w.snapshot.fresh.running = false := by
    rw [hw.snapshot]
    decide +kernel
  have hanswer : (Session.Request.perform w.snapshot (.load noFiles "")).1 =
      .error (.load (.file .notFound)) := by
    rw [hw.snapshot]
    decide +kernel
  have hshows : w.Shows w.snapshot := ⟨rfl, hw.crew, hw.task⟩
  obtain ⟨w', -, hleads⟩ := runs_script hrest (.load noFiles "") w hshows
  rw [hanswer] at hleads
  obtain ⟨-, htold⟩ := errors_told_once (ε := Simulator) (.load noFiles "")
  exact ⟨w, w', h, hleads, htold _ hleads⟩

end World

end Monitor68
