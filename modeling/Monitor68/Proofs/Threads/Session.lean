import Monitor68.Proofs.Session.Request
import Monitor68.Proofs.Threads.Engine
import Monitor68.RepeatingTask

/-!
# A session among threads

Three kinds of threads move a session.  Its owner asks for one operation
after the other; the threads of the engine execute; and the polling thread
refreshes the watched variables and looks whether the engine has halted.
A `World` is a session together with the places of the other two.

The operations are scripts here, with one step for every time that they
take a lock or touch a cell which another thread may touch.  The state of
the session is such a cell.  The polling thread keeps it locked from the
moment it enters the halted state until it has told so, while the owner
releases it before telling.

A `System` is a world together with the rest of the operation in progress,
and `Step` says which thread can lead from one system to which other.
-/

namespace Monitor68

open Script Files SRecord

/-- Where the polling thread is inside a tick. -/
inductive TickPlace where
  | refreshing
  | sending (view : View)
  /-- About to look whether the engine runs. -/
  | checking
  /-- Past that, and about to look at the state. -/
  | closing
  /-- Halted the session, and about to tell; the state is locked. -/
  | announcing
  | leaving
deriving DecidableEq, Repr

/-- A session with the threads of its engine and its polling thread.  Whether
the session polls is what the task says. -/
structure World (ε τ : Type) where
  session : Session ε
  threads : τ
  task : RepeatingTask := { phase := .finished, held := false }
  place : TickPlace := .refreshing

namespace World

variable {ε τ α : Type}

/-- The session as one who looks at all of it in one moment sees it. -/
def snapshot (w : World ε τ) : Session ε := { w.session with polling := w.task.isActive }

def machine (w : World ε τ) : Machine ε τ := { engine := w.session.engine, threads := w.threads }

def withMachine (m : Machine ε τ) (w : World ε τ) : World ε τ :=
  { w with session := { w.session with engine := m.engine }, threads := m.threads }

variable [Engine ε]

/-! ## The polling thread -/

/-- One step of a tick. -/
def tick (w : World ε τ) : World ε τ :=
  match w.place with
  | .refreshing =>
    let s := w.session.refreshWatches
    { w with session := s, place := .sending (.of s.engine s.listing s.watches.watches) }
  | .sending view => { w with session := w.session.emit (.refreshed view), place := .checking }
  | .checking =>
    if Engine.running w.session.engine then { w with task := w.task.endTick {} }
    else { w with place := .closing }
  | .closing =>
    if w.session.state = .running then
      { w with session := { w.session with state := .halted }, place := .announcing }
    else { w with place := .leaving }
  | .announcing =>
    { w with session := w.session.emit (.stateChanged .halted), place := .leaving }
  | .leaving => { w with task := w.task.endTick { ends := true } }

/-- One step of the polling thread. -/
def poll (w : World ε τ) : World ε τ :=
  match w.task.phase with
  | .testing => { w with task := w.task.test, place := .refreshing }
  | .ticking => w.tick
  | .waiting => { w with task := w.task.wake }
  | .finished => w

/-- What the polling thread tells in one step, if anything. -/
inductive PollTells : List SessionEvent → Prop where
  | nothing : PollTells []
  | view (view : View) : PollTells [.refreshed view]
  | halted : PollTells [.stateChanged .halted]

/-- A step of the polling thread changes the state, the values of the watched
variables, the events, and where the thread is.  The owner holds the thread
or not as before. -/
theorem poll_frame (w : World ε τ) : ∃ state watches told task place,
    w.poll = { w with
      session := { w.session with state, watches, events := w.session.events ++ told }
      task
      place } ∧
    (watches = w.session.watches ∨ watches = w.session.watches.refresh w.session.engine) ∧
    PollTells told ∧ task.held = w.task.held := by
  -- the steps that touch neither the variables nor the events
  have hsilent : ∀ state task place, task.held = w.task.held → ∃ state' watches told task' place',
      { w with session := { w.session with state }, task, place } = { w with
        session := { w.session with state := state', watches, events := w.session.events ++ told }
        task := task'
        place := place' } ∧
      (watches = w.session.watches ∨ watches = w.session.watches.refresh w.session.engine) ∧
      PollTells told ∧ task'.held = w.task.held := fun state task place hheld =>
    ⟨state, _, [], task, place, by rw [List.append_nil], .inl rfl, .nothing, hheld⟩
  unfold poll
  cases w.task.phase with
  | finished => exact hsilent _ _ _ rfl
  | waiting => exact hsilent _ _ _ rfl
  | testing => exact hsilent _ _ _ (by simp only [RepeatingTask.test]; split <;> rfl)
  | ticking =>
    simp only [tick]
    cases w.place with
    | refreshing => exact ⟨_, _, [], _, _, by rw [List.append_nil]; rfl, .inr rfl, .nothing, rfl⟩
    | sending view => exact ⟨_, _, _, _, _, rfl, .inl rfl, .view view, rfl⟩
    | announcing => exact ⟨_, _, _, _, _, rfl, .inl rfl, .halted, rfl⟩
    | leaving => exact hsilent _ _ _ rfl
    | checking => simp only; split <;> exact hsilent _ _ _ rfl
    | closing => simp only; split <;> exact hsilent _ _ _ rfl

/-- The polling thread looks at the engine and does not change it. -/
theorem machine_poll (w : World ε τ) : w.poll.machine = w.machine := by
  obtain ⟨state, watches, told, task, place, hpoll, -⟩ := w.poll_frame
  rw [hpoll]
  rfl

/-- Whether the polling thread has the state locked. -/
def locked (w : World ε τ) : Bool := w.task.phase = .ticking ∧ w.place = .announcing

/-- One step of the threads besides the owner's. -/
inductive Moves [Threaded ε τ] : World ε τ → World ε τ → Prop where
  | engine {w : World ε τ} {m : Machine ε τ} (h : Threaded.Moves w.machine m) :
      Moves w (w.withMachine m)
  | poll {w : World ε τ} (h : w.task.phase ≠ .finished) : Moves w w.poll

/-! ## Parts of the operations -/

/-- Change the session in one step. -/
def edit (f : Session ε → Session ε) : Script (World ε τ) Unit :=
  change fun w => { w with session := f w.session }

/-- A script for the engine and its threads. -/
def onMachine (c : Script (Machine ε τ) α) : Script (World ε τ) α := c.within machine withMachine

/-- Fail, and tell it. -/
def fail (error : SessionError) : Script (World ε τ) (Except SessionError α) := do
  edit fun s => s.emit (.error error.message)
  pure (.error error)

/-- Look at the state once it is not locked. -/
def readState : Script (World ε τ) SessionState :=
  once (fun w => !w.locked) fun w => (w.session.state, w)

/-- Go to a state, and then tell if it is another one. -/
def enter (state : SessionState) : Script (World ε τ) Unit := do
  let previous ← once (fun w => !w.locked) fun w =>
    (w.session.state, { w with session := { w.session with state } })
  if previous = state then pure () else edit fun s => s.emit (.stateChanged state)

/-- Stop the polling thread, if there is one, and wait for its end. -/
def stopPolling : Script (World ε τ) Unit := do
  let held ← look fun w => w.task.held
  if held then
    change fun w => { w with task := w.task.cancel }
    change fun w => { w with task := w.task.stop }
    await fun w => w.task.phase = .finished
  else pure ()

/-- An operation of the engine that takes one step. -/
def onEngine (f : ε → Except EngineError ε) : Script (World ε τ) (Except EngineError Unit) :=
  atomically fun w =>
    match f w.session.engine with
    | .error error => (.error error, w)
    | .ok engine => (.ok (), { w with session := { w.session with engine } })

/-- Occupy the next free breakpoint slot, and track it if the engine agrees. -/
def setBreakpoint (address : UInt32) : Script (World ε τ) (Except EngineError Breakpoint) := do
  let slot ← look fun w => w.session.breakpoints.nextFreeSlot
  let answer ← onEngine fun e => Engine.setBreakpoint e slot address .supervisor
  match answer with
  | .error error => pure (.error error)
  | .ok () =>
    let b : Breakpoint := { slot, address, mask := .supervisor }
    edit fun s => { s with breakpoints := { list := s.breakpoints.list ++ [b] } }
    pure (.ok b)

/-- Place the data records in memory, one after the other. -/
def placeRecords : List Record → Script (World ε τ) (Except EngineError Unit)
  | [] => pure (.ok ())
  | .start _ :: rest => placeRecords rest
  | .data address payload :: rest => do
    let answer ← atomically fun w =>
      let out := Engine.writeBlock w.session.engine address payload
      (out.2, { w with session := { w.session with engine := out.1 } })
    match answer with
    | .error error => pure (.error error)
    | .ok () => placeRecords rest

variable [Threaded ε τ]

/-- Replace the breakpoints by the one that an entry point asks for, and
reset the engine to it. -/
def enterProgram (entry : EntryPoint) (stack : UInt32) :
    Script (World ε τ) (Except EngineError Unit) := do
  edit fun s => { s with engine := Engine.clearBreakpoints s.engine }
  edit fun s => { s with breakpoints := .empty }
  if entry.explicit then
    let answer ← setBreakpoint entry.address
    match answer with
    | .error error => pure (.error error)
    | .ok _ => onMachine (Threaded.reset entry.address stack)
  else onMachine (Threaded.reset entry.address stack)

/-- Stop polling and power the engine down. -/
def powerDown : Script (World ε τ) (Except SessionError Unit) := do
  stopPolling
  let answer ← onMachine Threaded.shutdown
  match answer with
  | .error .alreadyShutdown => pure (.ok ())
  | .error error => fail (.engine error)
  | .ok () => pure (.ok ())

/-! ## The operations -/

/-- Execute one instruction. -/
def step : Script (World ε τ) (Except SessionError View) := do
  let powered ← look fun w => Engine.powered w.session.engine
  if powered then
    let running ← look fun w => Engine.running w.session.engine
    if running then fail .running
    else
      let answer ← onMachine Threaded.stepOne
      match answer with
      | .error error => fail (.engine error)
      | .ok () =>
        enter .stepping
        edit Session.refreshWatches
        let view ← look fun w =>
          View.of w.session.engine w.session.listing w.session.watches.watches
        pure (.ok view)
  else fail .notPowered

/-- Begin to execute continuously and to poll. -/
def run : Script (World ε τ) (Except SessionError Unit) := do
  let powered ← look fun w => Engine.powered w.session.engine
  if powered then
    let active ← look fun w => w.task.isActive
    if active then pure (.ok ())
    else
      let answer ← onMachine Threaded.run
      match answer with
      | .error error => fail (.engine error)
      | .ok () =>
        enter .running
        change fun w => { w with task := .started }
        pure (.ok ())
  else fail .notPowered

/-- Power down and go to a state. -/
def powerDownTo (state : SessionState) : Script (World ε τ) (Except SessionError Unit) := do
  let answer ← powerDown
  match answer with
  | .error error => pure (.error error)
  | .ok () =>
    enter state
    pure (.ok ())

/-- Start over with a fresh engine. -/
def reset : Script (World ε τ) (Except SessionError Unit) := do
  let answer ← powerDown
  match answer with
  | .error error => pure (.error error)
  | .ok () =>
    change fun w => w.withMachine { engine := w.session.fresh, threads := Threaded.fresh ε }
    edit fun s => { s with breakpoints := .empty }
    edit fun s => { s with listing := none }
    enter .unloaded
    pure (.ok ())

/-- Load the image at a path into the engine as it is. -/
def loadImage (settings : Settings) (files : FileSystem) (path : String) :
    Script (World ε τ) (Except SessionError EntryPoint) :=
  match files.openFile path with
  | .error error => fail (.load (.file error))
  | .ok contents =>
    match Image.records contents.lines with
    | .error error => fail (.load error)
    | .ok records => do
      let entry := Image.entryPoint settings.base records
      let placed ← placeRecords records
      match placed with
      | .error error => fail (.load (.engine error))
      | .ok () =>
        let entered ← enterProgram entry settings.stack
        match entered with
        | .error error => fail (.load (.engine error))
        | .ok () =>
          edit fun s => { s with listing := none }
          edit fun s => s.emit (.loaded entry.address)
          enter .loaded
          pure (.ok entry)

/-- Load the image at a path. -/
def load (settings : Settings) (files : FileSystem) (path : String) :
    Script (World ε τ) (Except SessionError EntryPoint) := do
  let state ← readState
  if state = .unloaded then loadImage settings files path
  else
    let answer ← reset
    match answer with
    | .error error => pure (.error error)
    | .ok () => loadImage settings files path

/-- Attach the listing at a path. -/
def attach (files : FileSystem) (path : String) (importing : Bool) :
    Script (World ε τ) Attachment :=
  match Session.readListing files path with
  | .error _ => do
    edit fun s => { s with listing := none }
    edit fun s => s.emit (.listingAttached .missing)
    pure .missing
  | .ok listing => do
    let attachment := .attached listing.lines.size listing.symbols.size
    edit fun s => { s with
      watches := if importing then s.watches.addSymbols listing.symbols.toList else s.watches }
    edit fun s => { s with listing := some listing }
    edit fun s => s.emit (.listingAttached attachment)
    pure attachment

/-- Open a source: load its image and attach its listing. -/
def openSource (settings : Settings) (files : FileSystem) (source : String) (importing : Bool) :
    Script (World ε τ) (Except SessionError (EntryPoint × Attachment)) :=
  match Session.companion files source Session.imageExtensions with
  | none => fail (.missingImage source)
  | some image => do
    let answer ← load settings files image
    match answer with
    | .error error => pure (.error error)
    | .ok entry =>
      let listing := (Session.companion files source Session.listingExtensions).getD
        (Path.withExtension source Session.listingExtension)
      let attachment ← attach files listing importing
      pure (.ok (entry, attachment))

/-- Set a breakpoint. -/
def addBreakpoint (address : UInt32) : Script (World ε τ) (Except SessionError Breakpoint) := do
  let answer ← setBreakpoint address
  match answer with
  | .error error => fail (.engine error)
  | .ok b => pure (.ok b)

/-- The script of an operation, of which only the failure matters. -/
def forget (c : Script (World ε τ) (Except SessionError α)) :
    Script (World ε τ) (Except SessionError Unit) := do
  let answer ← c
  pure (answer.map fun _ => ())

/-- What the owner does on a request. -/
def script (settings : Settings) :
    Session.Request → Script (World ε τ) (Except SessionError Unit)
  | .load files path => forget (load settings files path)
  | .openSource files source importing => forget (openSource settings files source importing)
  | .attach files path importing => do
    let _ ← attach files path importing
    pure (.ok ())
  | .step => forget step
  | .run => run
  | .stop => powerDownTo .halted
  | .powerOff => powerDownTo .poweredOff
  | .reset => reset
  | .addBreakpoint address => forget (addBreakpoint address)
  | .editWatches update => do
    edit fun s => { s with watches := update.apply s.watches }
    pure (.ok ())
  | .refreshWatches => do
    edit Session.refreshWatches
    pure (.ok ())

end World

/-! ## The system -/

/-- What the owner is doing: nothing, or the rest of an operation. -/
inductive Owner (ε τ : Type) where
  | idle
  | busy (rest : Script (World ε τ) (Except SessionError Unit))

/-- A world and its owner. -/
structure System (ε τ : Type) where
  world : World ε τ
  owner : Owner ε τ

namespace System

variable {ε τ : Type} [Engine ε] [Threaded ε τ]

/-- The threads that move a session. -/
inductive Thread where
  | owner
  | engine
  | poller
deriving DecidableEq, Repr

/-- One step of one thread.  Between two operations the engines that are
going to be made may change too. -/
inductive Step : Thread → System ε τ → System ε τ → Prop where
  | begin {w : World ε τ} (request : Session.Request) :
      Step .owner ⟨w, .idle⟩ ⟨w, .busy (World.script w.session.settings request)⟩
  | act {w : World ε τ} {ready : World ε τ → Bool} {effect : World ε τ → World ε τ}
      {next : World ε τ → Script (World ε τ) (Except SessionError Unit)}
      (hready : ready w = true) :
      Step .owner ⟨w, .busy (.act ready effect next)⟩ ⟨effect w, .busy (next w)⟩
  | finish {w : World ε τ} {answer : Except SessionError Unit} :
      Step .owner ⟨w, .busy (.done answer)⟩ ⟨w, .idle⟩
  | supply {w : World ε τ} {fresh : ε} (h : Threaded.Made fresh) :
      Step .owner ⟨w, .idle⟩ ⟨{ w with session := { w.session with fresh } }, .idle⟩
  | engine {w : World ε τ} {owner : Owner ε τ} {m : Machine ε τ}
      (h : Threaded.Moves w.machine m) : Step .engine ⟨w, owner⟩ ⟨w.withMachine m, owner⟩
  | poll {w : World ε τ} {owner : Owner ε τ} (h : w.task.phase ≠ .finished) :
      Step .poller ⟨w, owner⟩ ⟨w.poll, owner⟩

/-- A session that has just been made, with nothing going on. -/
def start (settings : Settings) (fresh : ε) : System ε τ where
  world := { session := .new settings fresh, threads := Threaded.fresh ε }
  owner := .idle

/-- The systems that a session can come to. -/
inductive Reachable : System ε τ → Prop where
  | start (settings : Settings) {fresh : ε} (h : Threaded.Made fresh) :
      Reachable (start settings fresh)
  | step {y y' : System ε τ} {thread : Thread} (h : Reachable y) (hstep : Step thread y y') :
      Reachable y'

/-- One system comes to another, the world is as wanted all the way, and the
polling thread takes so many steps. -/
inductive Stays (wanted : World ε τ → Prop) : System ε τ → Nat → System ε τ → Prop where
  | refl {y : System ε τ} (h : wanted y.world) : Stays wanted y 0 y
  | other {y y' y'' : System ε τ} {n : Nat} {thread : Thread} (path : Stays wanted y n y')
      (hstep : Step thread y' y'') (hthread : thread ≠ .poller) (h : wanted y''.world) :
      Stays wanted y n y''
  | poll {y y' y'' : System ε τ} {n : Nat} (path : Stays wanted y n y')
      (hstep : Step .poller y' y'') (h : wanted y''.world) : Stays wanted y (n + 1) y''

end System

/-- A session on a simulator among its threads. -/
abbrev Scene := World Simulator Simulator.Crew

end Monitor68
