import Monitor68.Files.Basic
import Monitor68.Image
import Monitor68.Inspect.Dump
import Monitor68.Inspect.WatchList
import Monitor68.Listing.Basic
import Monitor68.Settings.Basic
import Monitor68.Target.Control

/-!
# Sessions

A session is one user's work with one target: an engine, the program
loaded into it, the breakpoints, the watched variables and the listing.
It goes through a life cycle of states and tells its observers what
happens through a stream of events.

Every operation of a session is a function from a session to an outcome
and the session afterwards.  An operation that fails says so in the stream
as well, with the wording of its error; `fail` is the only way in which
operations fail, so no failure goes unsaid and none is said twice.
-/

namespace Monitor68

/-- Where a session is in its life cycle. -/
inductive SessionState where
  | unloaded
  /-- A program is loaded and the engine is at its entry point. -/
  | loaded
  /-- Halted after a single step. -/
  | stepping
  /-- Executing continuously. -/
  | running
  /-- Stopped by the user or by the engine itself. -/
  | halted
  | poweredOff
deriving DecidableEq, Repr

/-- Why an operation of a session failed. -/
inductive SessionError where
  | notPowered
  | running
  /-- There is no program image beside the source at this path. -/
  | missingImage (source : String)
  | load (error : LoadError)
  | engine (error : EngineError)
deriving DecidableEq, Repr

def SessionError.message : SessionError → String
  | .notPowered => "engine is not powered"
  | .running => "engine is running"
  | .missingImage source => "no binary image next to " ++ source
  | .load error => error.message
  | .engine error => error.message

/-- What became of an attempt to attach a listing. -/
inductive Attachment where
  /-- The listing is attached; it has so many lines and symbols. -/
  | attached (lines symbols : Nat)
  /-- There is no listing to be read. -/
  | missing
deriving DecidableEq, Repr

/-- What a front end shows once the target has moved. -/
structure View where
  registers : Registers
  watches : List Watch
  /-- The source line at the program counter, if the listing knows it. -/
  line : Option UInt32
deriving DecidableEq, Repr

namespace View

/-- The row of the source line, counted from zero. -/
def row (v : View) : Option UInt32 := v.line.map fun line => if line = 0 then 0 else line - 1

/-- The source line as text. -/
def label (v : View) : String :=
  match v.line with
  | some line => Text.Numeral.decimal line.toNat
  | none => "unknown"

/-- The view of an engine with the given listing and watched values. -/
def of {ε : Type} [Engine ε] (e : ε) (listing : Option Listing) (watches : List Watch) : View :=
  let registers := Engine.registers e
  { registers, watches, line := listing.bind fun l => l.lineFor registers.pc }

end View

/-- What a session tells its observers. -/
inductive SessionEvent where
  | loaded (entry : UInt32)
  | listingAttached (attachment : Attachment)
  | stateChanged (state : SessionState)
  | refreshed (view : View)
  | error (message : String)
deriving DecidableEq, Repr

/-- A session over engines of type `ε`. -/
structure Session (ε : Type) where
  settings : Settings
  /-- The engine that a reset begins with. -/
  fresh : ε
  engine : ε
  state : SessionState := .unloaded
  breakpoints : TrackedBreakpoints := {}
  watches : WatchList := {}
  listing : Option Listing := none
  /-- Whether the task that refreshes a running session is alive. -/
  polling : Bool := false
  /-- What was told so far, oldest first. -/
  events : List SessionEvent := []

namespace Session

variable {ε : Type}

def new (settings : Settings) (fresh : ε) : Session ε := { settings, fresh, engine := fresh }

/-- What an operation of a session returns. -/
abbrev Result (ε α : Type) := Except SessionError α × Session ε

/-! ## Telling -/

def emit (s : Session ε) (event : SessionEvent) : Session ε :=
  { s with events := s.events ++ [event] }

/-- Go to a state, and tell if it is another one. -/
def enter (s : Session ε) (state : SessionState) : Session ε :=
  if s.state = state then s else { s with state }.emit (.stateChanged state)

def fail {α : Type} (s : Session ε) (error : SessionError) : Result ε α :=
  (.error error, s.emit (.error error.message))

/-! ## Looking -/

variable [Engine ε]

/-- The present view.  The stored values of the watched variables stay as
they are. -/
def view (s : Session ε) : View := .of s.engine s.listing (s.watches.evaluate s.engine)

def refreshWatches (s : Session ε) : Session ε := { s with watches := s.watches.refresh s.engine }

/-- The memory around a centre. -/
def dump (s : Session ε) (center : UInt32) (rows : Nat) : List DumpRow :=
  Dump.around s.engine center rows (Engine.registers s.engine).sp

/-! ## Breakpoints -/

/-- Stop when supervisor code comes to an address. -/
def addBreakpoint (s : Session ε) (address : UInt32) : Result ε Breakpoint :=
  match s.breakpoints.set s.engine address .supervisor with
  | .error error => s.fail (.engine error)
  | .ok (b, breakpoints, engine) => (.ok b, { s with breakpoints, engine })

end Session

end Monitor68
