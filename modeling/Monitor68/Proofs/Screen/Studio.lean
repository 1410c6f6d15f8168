import Monitor68.Proofs.Screen.Glance
import Monitor68.Proofs.Threads.Client
import Monitor68.Proofs.Threads.Reliance
import Monitor68.Proofs.Threads.Stopping

/-!
# A screen among threads

The owner of a screen switches it on and off and exchanges its engine.
Each time that the screen goes on, a new thread begins to refresh the
mailbox, and the listener is called on that thread.  All the while the
engines go on.

A `Studio` is a screen with all the threads that it ever had, with what
was published on them, and with what the listener heard.  The steps of a
thread are those of its loop, and inside a tick one for each look at the
engine, for the publication, for the look at the mailbox that tells what
the listener is shown, for the call, and for the interrupt.  A listener
may do anything but return, which ends its thread.

The operations of the owner are scripts.  To switch off is to stop the
task and to wait for the end of its thread before black is shown.
-/

namespace Monitor68.Screen

open Script
open RepeatingTask (Loop)

variable {ι ε : Type}

/-! ## Threads -/

/-- Where a thread is inside a tick. -/
inductive TickStage (ε : Type) where
  | outside
  | looking (seen : List (Sight ε)) (rest : Glance (Sight ε) Verdict)
  /-- About to publish what follows from what was seen. -/
  | publishing (frame : Frame) (raises : Bool) (seen : List (Sight ε))
  /-- Published, and about to look what the mailbox holds for the listener. -/
  | fetching (raises : Bool)
  | calling (frame : Frame) (raises : Bool)
  /-- Done but for an interrupt. -/
  | leaving (raises : Bool)

/-- A thread that refreshes the mailbox. -/
structure Thread (ι ε : Type) where
  loop : Loop := .started
  /-- The engine that it looks at. -/
  source : ι
  worker : Worker
  stage : TickStage ε := .outside

/-- A frame that a thread published: the engine that was looked at, and all
that was seen of it. -/
structure Publication (ι ε : Type) where
  frame : Frame
  source : ι
  seen : List (Sight ε)

/-- A screen with its threads. -/
structure Studio (ι ε : Type) where
  engines : ι → ε
  layout : Layout
  /-- The engine behind the screen. -/
  engine : ι
  /-- Whether there is a listener. -/
  listening : Bool
  mailbox : Mailbox
  on : Bool := false
  newest : Option (Thread ι ε) := none
  earlier : List (Thread ι ε) := []
  /-- What the threads published, oldest first. -/
  published : List (Publication ι ε) := []
  /-- What the listener was shown, oldest first. -/
  heard : List Frame := []

/-- Whether an interrupt belongs to what was found out. -/
def Verdict.raises (l : Layout) : Verdict → Bool
  | .composed _ => l.frameSwap
  | _ => false

/-- What a worker does next when it has found something out. -/
def Worker.stage (w : Worker) (seen : List (Sight ε)) (verdict : Verdict) : TickStage ε :=
  match (w.judge verdict).1 with
  | none => .leaving false
  | some frame => .publishing frame (verdict.raises w.layout) seen

namespace Studio

/-- A screen that is off. -/
def fresh (engines : ι → ε) (layout : Layout) (engine : ι) (listening : Bool) : Studio ι ε :=
  { engines, layout, engine, listening, mailbox := { latest := layout.plain idleColor } }

def threads (s : Studio ι ε) : List (Thread ι ε) := s.newest.toList ++ s.earlier

/-- What a thread sees if it looks now. -/
def sight (s : Studio ι ε) (w : Thread ι ε) : Sight ε :=
  { engine := s.engines w.source, cancelled := w.loop.cancelled }

/-- A thread publishes a frame. -/
def publish (s : Studio ι ε) (p : Publication ι ε) : Studio ι ε :=
  { s with mailbox := (s.mailbox.publish p.frame).2, published := s.published ++ [p] }

/-- The listener is called. -/
def hear (s : Studio ι ε) (frame : Frame) : Studio ι ε := { s with heard := s.heard ++ [frame] }

/-- The interrupt line of an engine is raised. -/
def interrupt [DecidableEq ι] [Engine ε] (s : Studio ι ε) (engine : ι) : Studio ι ε :=
  { s with
    engines := fun i =>
      if i = engine then Engine.raiseInterrupt (s.engines i) s.layout.interruptLine
      else s.engines i }

end Studio

section Moves

variable [DecidableEq ι] [Engine ε]

/-- One step of a thread. -/
inductive Thread.Step (s : Studio ι ε) (w : Thread ι ε) : Studio ι ε → Thread ι ε → Prop where
  | look {l : Loop} (hloop : Loop.Step .looked w.loop l) : Step s w s { w with loop := l }
  | wake {l : Loop} (hloop : Loop.Step .woke w.loop l) : Step s w s { w with loop := l }
  | begin {l : Loop} (hloop : Loop.Step .began w.loop l) :
      Step s w s { w with loop := l, stage := .looking [] (glance w.worker.layout) }
  | see {seen : List (Sight ε)} {next : Sight ε → Glance (Sight ε) Verdict}
      (h : w.stage = .looking seen (.look next)) :
      Step s w s { w with stage := .looking (seen ++ [s.sight w]) (next (s.sight w)) }
  | judge {seen : List (Sight ε)} {verdict : Verdict}
      (h : w.stage = .looking seen (.answer verdict)) :
      Step s w s
        { w with worker := (w.worker.judge verdict).2, stage := w.worker.stage seen verdict }
  | publish {frame : Frame} {raises : Bool} {seen : List (Sight ε)}
      (h : w.stage = .publishing frame raises seen) :
      Step s w (s.publish { frame, source := w.source, seen })
        { w with stage := if s.listening then .fetching raises else .leaving raises }
  | fetch {raises : Bool} (h : w.stage = .fetching raises) :
      Step s w s { w with stage := .calling s.mailbox.latest raises }
  | call {frame : Frame} {raises : Bool} (h : w.stage = .calling frame raises) :
      Step s w (s.hear frame) { w with stage := .leaving raises }
  | crash {frame : Frame} {raises : Bool} {l : Loop} (h : w.stage = .calling frame raises)
      (hloop : Loop.Step (.ended .panics) w.loop l) :
      Step s w (s.hear frame) { w with loop := l, stage := .outside }
  | interrupt (h : w.stage = .leaving true) :
      Step s w (s.interrupt w.source) { w with stage := .leaving false }
  | finish {l : Loop} (h : w.stage = .leaving false)
      (hloop : Loop.Step (.ended .continues) w.loop l) :
      Step s w s { w with loop := l, stage := .outside }

/-- What happens besides the owner: a thread takes a step, or the engines
go on. -/
inductive Studio.Moves : Studio ι ε → Studio ι ε → Prop where
  | newest {s s' : Studio ι ε} {w w' : Thread ι ε} (h : s.newest = some w)
      (hstep : w.Step s s' w') : Moves s { s' with newest := some w' }
  | earlier {s s' : Studio ι ε} {w w' : Thread ι ε} {front back : List (Thread ι ε)}
      (h : s.earlier = front ++ w :: back) (hstep : w.Step s s' w') :
      Moves s { s' with earlier := front ++ w' :: back }
  | outside {s : Studio ι ε} (engines : ι → ε) : Moves s { s with engines }

end Moves

/-! ## The owner -/

namespace Studio

/-- Let the task of the newest thread become another. -/
def onTask (f : Loop → Loop) (s : Studio ι ε) : Studio ι ε :=
  { s with newest := s.newest.map fun w => { w with loop := f w.loop } }

/-- Whether the newest thread is still held. -/
def held (s : Studio ι ε) : Bool := s.newest.any fun w => w.loop.held

/-- Whether the newest thread has finished, if there is one. -/
def quiet (s : Studio ι ε) : Bool := s.newest.all fun w => w.loop.place = .finished

/-- Start a thread. -/
def spawn (s : Studio ι ε) : Studio ι ε :=
  { s with
    newest := some { source := s.engine, worker := { layout := s.layout } }
    earlier := s.newest.toList ++ s.earlier }

theorem length_threads_spawn (s : Studio ι ε) :
    s.spawn.threads.length = s.threads.length + 1 := by
  simp [threads, spawn, Nat.add_comm]

/-- Show black. -/
def darken (s : Studio ι ε) : Studio ι ε :=
  { s with mailbox := (s.mailbox.publish (s.layout.plain idleColor)).2 }

/-- Wait for the end of the newest thread, if it was held. -/
def join (held : Bool) : Script (Studio ι ε) Unit :=
  if held then once quiet fun s => ((), s.onTask fun l => l.stopStep .owner .joining)
  else pure ()

/-- Stop the newest thread and wait for its end.  The task is let go of then,
and it has been stopped already. -/
def stop : Script (Studio ι ε) Unit := do
  change (onTask fun l => { l with call := some ⟨.owner, .cancelling⟩ })
  change (onTask fun l => l.stopStep .owner .cancelling)
  change (onTask fun l => l.stopStep .owner .signalling)
  let held ← atomically fun s => (s.held, s.onTask fun l => l.stopStep .owner .releasing)
  join held
  change (onTask fun l => l.stopStep .owner .returning)

def switchOn : Script (Studio ι ε) Unit := do
  let on ← Script.look Studio.on
  if on then pure ()
  else
    change spawn
    change fun s => { s with on := true }

/-- Stop the thread of a screen that was on. -/
def dismiss (on : Bool) : Script (Studio ι ε) Unit := if on then stop else pure ()

def switchOff : Script (Studio ι ε) Unit := do
  let on ← atomically fun s => (s.on, { s with on := false })
  dismiss on
  change darken

/-- Switch a screen over that was on or off. -/
def turn (on : Bool) : Script (Studio ι ε) Unit := if on then switchOff else switchOn

/-- Switch over, and tell whether the screen is on then. -/
def toggle : Script (Studio ι ε) Bool := do
  let on ← Script.look Studio.on
  turn on
  Script.look Studio.on

/-- Put another engine behind the screen. -/
def exchange (engine : ι) : Script (Studio ι ε) Unit := do
  let on ← Script.look Studio.on
  switchOff
  change fun s => { s with engine }
  if on then switchOn else pure ()

end Studio

/-! ## The requests -/

/-- What the owner can ask for. -/
inductive Request (ι : Type) where
  | switchOn
  | switchOff
  | toggle
  | exchange (engine : ι)

/-- The script of a request, which ends with the answer if there is one. -/
def Request.script : Request ι → Script (Studio ι ε) (Option Bool)
  | .switchOn => do
    Studio.switchOn
    pure none
  | .switchOff => do
    Studio.switchOff
    pure none
  | .toggle => do
    let on ← Studio.toggle
    pure (some on)
  | .exchange engine => do
    Studio.exchange engine
    pure none

/-- What the owner can ask for, and what the threads do.  It is noted down
whether the screen is on when an operation begins. -/
def Studio.service (ι ε : Type) [DecidableEq ι] [Engine ε] :
    Service (Studio ι ε) (Request ι) Bool (Option Bool) Unit where
  script := Request.script
  note := Studio.on
  Moves _ := Studio.Moves

end Monitor68.Screen
