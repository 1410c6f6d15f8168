import Monitor68.Session.Program

/-!
# What can be asked of a session

A session has one owner, who asks for one operation after the other.  A
`Request` is such an operation with its arguments; the files within reach
are an argument too, since they may change from one request to the next.

Each operation can come to a few results only.  The `_cases` lemmas list
them, for any engine, with the conditions under which each arises, so that
what a session keeps is shown by going through results and not by going
through the text of the operations.
-/

namespace Monitor68.Session

open Files

/-- A change to the list of watched variables. -/
inductive WatchEdit where
  | add (address : UInt32) (name : Option String) (encoding : Encoding)
  | remove (id : UInt32)
  | clear
  | setEncoding (id : UInt32) (encoding : Encoding)

/-- The list after a change. -/
def WatchEdit.apply (w : WatchList) : WatchEdit → WatchList
  | .add address name encoding => (w.add address name encoding).2
  | .remove id => (w.remove id).2
  | .clear => w.clear
  | .setEncoding id encoding => (w.setEncoding id encoding).2

/-- What the owner of a session can ask for. -/
inductive Request where
  | load (files : FileSystem) (path : String)
  | openSource (files : FileSystem) (source : String) (importing : Bool)
  | attach (files : FileSystem) (path : String) (importing : Bool)
  | step
  | run
  | stop
  | powerOff
  | reset
  | addBreakpoint (address : UInt32)
  | editWatches (edit : WatchEdit)
  | refreshWatches

variable {ε : Type}

/-! ## What stays as it is -/

section Frame

variable (s : Session ε) (state : SessionState)

/-- To enter a state changes the state and the events only. -/
theorem enter_frame : ∃ events, s.enter state = { s with state, events } := by
  unfold enter
  split
  · rename_i h
    exact ⟨s.events, by rw [← h]⟩
  · exact ⟨_, rfl⟩

@[simp] theorem engine_enter : (s.enter state).engine = s.engine := by
  obtain ⟨events, h⟩ := s.enter_frame state
  rw [h]

@[simp] theorem fresh_enter : (s.enter state).fresh = s.fresh := by
  obtain ⟨events, h⟩ := s.enter_frame state
  rw [h]

@[simp] theorem listing_enter : (s.enter state).listing = s.listing := by
  obtain ⟨events, h⟩ := s.enter_frame state
  rw [h]

@[simp] theorem watches_enter : (s.enter state).watches = s.watches := by
  obtain ⟨events, h⟩ := s.enter_frame state
  rw [h]

/-- To attach a listing changes the watched variables, the listing and the
events only. -/
theorem attach_frame (files : FileSystem) (path : String) (importing : Bool) :
    ∃ watches listing events,
      (s.attach files path importing).2 = { s with watches, listing, events } := by
  unfold attach
  split <;> exact ⟨_, _, _, rfl⟩

end Frame

variable [Engine ε]

/-- Do what a request asks for.  The answer tells whether it was done. -/
def Request.perform (s : Session ε) : Request → Result ε Unit
  | .load files path => let (answer, s) := s.load files path; (answer.map fun _ => (), s)
  | .openSource files source importing =>
    let (answer, s) := s.openSource files source importing
    (answer.map fun _ => (), s)
  | .attach files path importing => (.ok (), (s.attach files path importing).2)
  | .step => let (answer, s) := s.step; (answer.map fun _ => (), s)
  | .run => s.run
  | .stop => s.stop
  | .powerOff => s.powerOff
  | .reset => s.reset
  | .addBreakpoint address =>
    let (answer, s) := s.addBreakpoint address
    (answer.map fun _ => (), s)
  | .editWatches edit => (.ok (), { s with watches := edit.apply s.watches })
  | .refreshWatches => (.ok (), s.refreshWatches)

/-! ## Execution -/

/-- A poll looks at the engine and does not change it. -/
theorem poll_frame (s : Session ε) :
    ∃ state watches polling events,
      s.poll = { s with state, watches, polling, events } := by
  unfold poll
  split
  · simp only
    split
    · exact ⟨_, _, _, _, rfl⟩
    · split
      · obtain ⟨events, h⟩ := enter_frame (s.refreshWatches.emit
          (.refreshed (.of s.engine s.listing s.refreshWatches.watches.watches))) .halted
        exact ⟨_, _, _, events, congrArg (fun t : Session ε => { t with polling := false }) h⟩
      · exact ⟨_, _, _, _, rfl⟩
  · exact ⟨_, _, _, _, rfl⟩

/-- A step fails and does nothing else, or it executes one instruction of a
powered engine at rest. -/
theorem step_cases (s : Session ε) :
    (∃ error, s.step = s.fail error) ∨
    ∃ engine, Engine.powered s.engine = true ∧ Engine.running s.engine = false ∧
      Engine.stepOne s.engine = .ok engine ∧
      s.step.2 = (({ s with engine } : Session ε).enter .stepping).refreshWatches := by
  unfold step
  split
  · rename_i hpower
    split
    · exact .inl ⟨_, rfl⟩
    · rename_i hrunning
      rw [Control.step, if_pos hpower]
      cases hstep : Engine.stepOne s.engine with
      | error error => exact .inl ⟨_, rfl⟩
      | ok engine => exact .inr ⟨engine, hpower, by simpa using hrunning, rfl, rfl⟩
  · exact .inl ⟨_, rfl⟩

/-- To run fails and does nothing else, or finds the session polling, or
starts the engine. -/
theorem run_cases (s : Session ε) :
    (∃ error, s.run = s.fail error) ∨
    (Engine.powered s.engine = true ∧ s.polling = true ∧ s.run = (.ok (), s)) ∨
    ∃ engine, Engine.powered s.engine = true ∧ s.polling = false ∧
      Engine.run s.engine = .ok engine ∧
      s.run = (.ok (),
        { ({ s with engine } : Session ε).enter .running with polling := true }) := by
  unfold run
  split
  · rename_i hpower
    split
    · rename_i hpolling
      exact .inr (.inl ⟨hpower, hpolling, rfl⟩)
    · rename_i hpolling
      cases hrun : Engine.run s.engine with
      | error error => exact .inl ⟨_, rfl⟩
      | ok engine => exact .inr (.inr ⟨engine, hpower, by simpa using hpolling, rfl, rfl⟩)
  · exact .inl ⟨_, rfl⟩

/-- Whether an engine is another one powered down: it was shut down, or it
was down already and is the same. -/
def PoweredDown (before after : ε) : Prop :=
  Engine.shutdown before = .ok after ∨
    Engine.shutdown before = .error .alreadyShutdown ∧ after = before

/-- Whether an engine refuses to be powered down. -/
def Refuses (e : ε) (error : EngineError) : Prop :=
  Engine.shutdown e = .error error ∧ error ≠ .alreadyShutdown

/-- To power an engine down fails only if the engine refuses. -/
theorem control_powerDown_cases (e : ε) :
    (∃ error, Refuses e error ∧ Control.powerDown e = .error error) ∨
    ∃ was e', PoweredDown e e' ∧ Control.powerDown e = .ok (was, e') := by
  unfold Control.powerDown Refuses
  cases h : Engine.shutdown e with
  | ok e' => exact .inr ⟨true, e', .inl h, rfl⟩
  | error error =>
    cases error with
    | alreadyShutdown => exact .inr ⟨false, e, .inr ⟨h, rfl⟩, rfl⟩
    | invalidAddress address => exact .inl ⟨_, ⟨rfl, by simp⟩, rfl⟩
    | notPowered => exact .inl ⟨_, ⟨rfl, by simp⟩, rfl⟩
    | invalidBreakpointSlot slot => exact .inl ⟨_, ⟨rfl, by simp⟩, rfl⟩

/-- To power down ends the polling in any case.  It fails if the engine
refuses. -/
theorem powerDown_cases (s : Session ε) :
    (∃ error, Refuses s.engine error ∧
      s.powerDown = ({ s with polling := false } : Session ε).fail (.engine error)) ∨
    ∃ engine, PoweredDown s.engine engine ∧
      s.powerDown = (.ok (), { s with polling := false, engine }) := by
  rcases control_powerDown_cases s.engine with ⟨error, hrefuse, h⟩ | ⟨was, engine, hdown, h⟩
  · refine .inl ⟨error, hrefuse, ?_⟩
    simp only [powerDown, h]
  · refine .inr ⟨engine, hdown, ?_⟩
    simp only [powerDown, h]

/-- To power down and then be in a state.  To stop and to power off are the
two ways to do that. -/
def powerDownTo (s : Session ε) (state : SessionState) : Result ε Unit :=
  match s.powerDown with
  | (.error error, s) => (.error error, s)
  | (.ok (), s) => (.ok (), s.enter state)

theorem stop_eq (s : Session ε) : s.stop = s.powerDownTo .halted := rfl

theorem powerOff_eq (s : Session ε) : s.powerOff = s.powerDownTo .poweredOff := rfl

theorem powerDownTo_cases (s : Session ε) (state : SessionState) :
    (∃ error, Refuses s.engine error ∧
      s.powerDownTo state =
        ({ s with polling := false } : Session ε).fail (.engine error)) ∨
    ∃ engine, PoweredDown s.engine engine ∧
      s.powerDownTo state =
        (.ok (), ({ s with polling := false, engine } : Session ε).enter state) := by
  unfold powerDownTo
  rcases powerDown_cases s with ⟨error, hrefuse, h⟩ | ⟨engine, hdown, h⟩
  · rw [h]
    exact .inl ⟨error, hrefuse, rfl⟩
  · rw [h]
    exact .inr ⟨engine, hdown, rfl⟩

/-- The session that a reset leaves. -/
def startedOver (s : Session ε) : Session ε :=
  ({ s with polling := false, engine := s.fresh, breakpoints := .empty, listing := none } :
    Session ε).enter .unloaded

/-- A reset starts over if the engine can be powered down. -/
theorem reset_cases (s : Session ε) :
    (∃ error, Refuses s.engine error ∧
      s.reset = ({ s with polling := false } : Session ε).fail (.engine error)) ∨
    (∃ engine, PoweredDown s.engine engine) ∧ s.reset = (.ok (), s.startedOver) := by
  unfold reset
  rcases powerDown_cases s with ⟨error, hrefuse, h⟩ | ⟨engine, hdown, h⟩
  · rw [h]
    exact .inl ⟨error, hrefuse, rfl⟩
  · rw [h]
    exact .inr ⟨⟨engine, hdown⟩, rfl⟩

/-! ## Programs -/

/-- The target that a load works on. -/
def target (s : Session ε) : Target ε := { engine := s.engine, breakpoints := s.breakpoints }

/-- The session on a target that a load has left. -/
def onTarget (s : Session ε) (t : Target ε) : Session ε :=
  { s with engine := t.engine, breakpoints := t.breakpoints }

/-- A file that cannot be opened leaves the session as it was. -/
theorem loadImage_of_error (s : Session ε) {files : FileSystem} {path : String}
    {error : FileError} (h : files.openFile path = .error error) :
    s.loadImage files path = s.fail (.load (.file error)) := by
  simp only [loadImage, h]

/-- An opened file is loaded into the target of the session, which keeps
what the load has left.  The rest of the session changes on success only. -/
theorem loadImage_cases (s : Session ε) {files : FileSystem} {path : String} {c : Contents}
    (h : files.openFile path = .ok c) :
    let out := Image.load s.target s.settings.base s.settings.stack c.lines
    (∃ error, out.2 = .error error ∧
      s.loadImage files path = (s.onTarget out.1).fail (.load error)) ∨
    ∃ entry, out.2 = .ok entry ∧
      s.loadImage files path = (.ok entry,
        (({ s.onTarget out.1 with listing := none } : Session ε).emit
          (.loaded entry.address)).enter .loaded) := by
  simp only [loadImage, h, target]
  generalize Image.load { engine := s.engine, breakpoints := s.breakpoints } s.settings.base
    s.settings.stack c.lines = out
  obtain ⟨target, answer⟩ := out
  cases answer with
  | error error => exact .inl ⟨error, rfl, rfl⟩
  | ok entry => exact .inr ⟨entry, rfl, rfl⟩

/-- To load is to reset and to load the image, or one of the two alone. -/
theorem load_cases (s : Session ε) (files : FileSystem) (path : String) :
    (s.state = .unloaded ∧ s.load files path = s.loadImage files path) ∨
    s.state ≠ .unloaded ∧
      ((∃ error, s.reset.1 = .error error ∧ s.load files path = (.error error, s.reset.2)) ∨
        s.reset.1 = .ok () ∧ s.load files path = s.reset.2.loadImage files path) := by
  unfold load
  by_cases hstate : s.state = .unloaded
  · rw [if_pos hstate]
    exact .inl ⟨hstate, rfl⟩
  · rw [if_neg hstate]
    refine .inr ⟨hstate, ?_⟩
    generalize s.reset = out
    obtain ⟨answer, s'⟩ := out
    cases answer with
    | error error => exact .inl ⟨error, rfl, rfl⟩
    | ok _ => exact .inr ⟨rfl, rfl⟩

/-- To open a source is to load the image beside it, and to attach a
listing if that succeeds. -/
theorem openSource_cases (s : Session ε) (files : FileSystem) (source : String)
    (importing : Bool) :
    (companion files source imageExtensions = none ∧
      s.openSource files source importing = s.fail (.missingImage source)) ∨
    ∃ image, companion files source imageExtensions = some image ∧
      ((∃ error s', s.load files image = (.error error, s') ∧
        s.openSource files source importing = (.error error, s')) ∨
      ∃ entry s', s.load files image = (.ok entry, s') ∧
        let listing := (companion files source listingExtensions).getD
          (Path.withExtension source listingExtension)
        s.openSource files source importing =
          (.ok (entry, (s'.attach files listing importing).1),
            (s'.attach files listing importing).2)) := by
  unfold openSource
  cases himage : companion files source imageExtensions with
  | none => exact .inl ⟨rfl, rfl⟩
  | some image =>
    refine .inr ⟨image, rfl, ?_⟩
    generalize hload : s.load files image = out
    obtain ⟨answer, s'⟩ := out
    cases answer with
    | error error =>
      refine .inl ⟨error, s', rfl, ?_⟩
      simp only [hload]
    | ok entry =>
      refine .inr ⟨entry, s', rfl, ?_⟩
      simp only [hload]

/-- A breakpoint is set on both sides, or the session fails and does
nothing else. -/
theorem addBreakpoint_cases (s : Session ε) (address : UInt32) :
    (∃ error, s.addBreakpoint address = s.fail error) ∨
    ∃ engine, Engine.setBreakpoint s.engine s.breakpoints.nextFreeSlot address .supervisor =
        .ok engine ∧
      (s.addBreakpoint address).2 =
        { s with
          engine
          breakpoints := { list := s.breakpoints.list ++
            [{ slot := s.breakpoints.nextFreeSlot, address, mask := .supervisor }] } } := by
  cases h : Engine.setBreakpoint s.engine s.breakpoints.nextFreeSlot address .supervisor with
  | error error =>
    refine .inl ⟨.engine error, ?_⟩
    simp only [addBreakpoint, TrackedBreakpoints.set, h]
  | ok engine =>
    refine .inr ⟨engine, rfl, ?_⟩
    simp only [addBreakpoint, TrackedBreakpoints.set, h]

end Monitor68.Session
