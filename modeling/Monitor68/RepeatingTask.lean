/-!
# Repeating tasks

A repeating task calls a tick again and again on a thread of its own, with
a wait between two calls, until it is stopped, cancelled or told by a tick
to end.  Its thread goes round a loop of three places: it looks whether
the task is cancelled, it is inside a tick, or it waits.  The owner stops
the task by cancelling it, signalling to the waiting thread, and letting
go of it.

Every step of the thread and every act of the owner is a function here, so
an interleaving of the two is a list of such steps.  `run` is the thread
left alone.
-/

namespace Monitor68

/-- What a tick did: whether it cancelled its task, whether it stopped its
task, and whether it told the task to end. -/
structure TickResult where
  cancels : Bool := false
  stops : Bool := false
  ends : Bool := false
deriving DecidableEq, Repr

/-- Where the thread of a task is. -/
inductive TaskPhase where
  /-- About to look whether the task is cancelled. -/
  | testing
  | ticking
  | waiting
  | finished
deriving DecidableEq, Repr

structure RepeatingTask where
  phase : TaskPhase := .testing
  cancelled : Bool := false
  /-- Whether the waiting thread was told to go. -/
  signalled : Bool := false
  /-- Whether the owner still holds the thread. -/
  held : Bool := true
  /-- The ticks that have begun so far. -/
  ticks : Nat := 0
deriving DecidableEq, Repr

namespace RepeatingTask

/-- A task that has just been started. -/
def started : RepeatingTask := {}

/-- Whether the owner holds a thread that has not finished. -/
def isActive (t : RepeatingTask) : Bool := t.held && t.phase != .finished

/-! ## The owner -/

/-- Ask the task not to begin another tick. -/
def cancel (t : RepeatingTask) : RepeatingTask := { t with cancelled := true }

/-- Cancel the task, wake its thread, and let go of it. -/
def stop (t : RepeatingTask) : RepeatingTask :=
  { t with cancelled := true, signalled := t.signalled || t.held, held := false }

/-! ## The thread -/

/-- Begin a tick, or finish if the task is cancelled. -/
def test (t : RepeatingTask) : RepeatingTask :=
  if t.cancelled then { t with phase := .finished }
  else { t with phase := .ticking, ticks := t.ticks + 1 }

/-- What a tick does to its own task while it runs. -/
def act (t : RepeatingTask) (r : TickResult) : RepeatingTask :=
  let t := if r.cancels then t.cancel else t
  if r.stops then t.stop else t

def endTick (t : RepeatingTask) (r : TickResult) : RepeatingTask :=
  { t with phase := if r.ends then .finished else .waiting }

/-- End a wait: at a signal the thread finishes, and when the time is up it
goes round again. -/
def wake (t : RepeatingTask) : RepeatingTask :=
  { t with phase := if t.signalled then .finished else .testing }

/-- One step of the thread, with the result of the tick it may be in. -/
def advance (t : RepeatingTask) (r : TickResult) : RepeatingTask :=
  match t.phase with
  | .testing => t.test
  | .ticking => (t.act r).endTick r
  | .waiting => t.wake
  | .finished => t

/-- Let the thread go so many steps alone.  The tick that has number `n`
has the result `results n`. -/
def run (results : Nat → TickResult) : Nat → RepeatingTask → RepeatingTask
  | 0, t => t
  | steps + 1, t => run results steps (t.advance (results t.ticks))

end RepeatingTask

end Monitor68
