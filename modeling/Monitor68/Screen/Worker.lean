import Monitor68.Screen.Compose
import Monitor68.Screen.Mailbox

/-!
# The screen worker

The worker refreshes a mailbox, one tick at a time.  While the engine has
no power it publishes one white frame and then nothing.  In frame-swap
mode it takes a frame only when the target says that one is ready, and
raises an interrupt after it has published it.  A frame that cannot be
composed is skipped.
-/

namespace Monitor68.Screen

open Monitor68

/-- What the worker remembers between two ticks. -/
structure Worker where
  layout : Layout
  /-- Whether the frame for an engine without power is being shown. -/
  showingOff : Bool := false
deriving DecidableEq, Repr

/-- The colour shown while the engine has no power. -/
def offColor : Color := .white

/-- The colour shown while the screen is switched off. -/
def idleColor : Color := .black

/-- The picture of one colour that fills the screen. -/
def Layout.plain (l : Layout) (color : Color) : Frame := .filled l.width l.height color

/-- Everything that a tick may change, and the number of the frame that it
published, if it did. -/
structure Tick (ε : Type) where
  published : Option Nat
  worker : Worker
  engine : ε
  mailbox : Mailbox

variable {ε : Type} [Engine ε]

/-- Whether the worker may take a frame now: without frame swap always, and
with it when the status byte can be read and says so. -/
def mayTake (e : ε) (l : Layout) : Bool :=
  !l.frameSwap ||
    match readStatus e l with
    | .ok status => status.ack
    | .error _ => false

/-- Refresh once. -/
def Worker.tick (w : Worker) (e : ε) (m : Mailbox) (cancelled : Bool) : Tick ε :=
  let l := w.layout
  if Engine.powered e then
    let w := { w with showingOff := false }
    if mayTake e l then
      match composeUnless cancelled e l l.base with
      | .error _ => { published := none, worker := w, engine := e, mailbox := m }
      | .ok frame =>
        let (generation, m) := m.publish frame
        let e := if l.frameSwap then Engine.raiseInterrupt e l.interruptLine else e
        { published := some generation, worker := w, engine := e, mailbox := m }
    else { published := none, worker := w, engine := e, mailbox := m }
  else if w.showingOff then { published := none, worker := w, engine := e, mailbox := m }
  else
    let (generation, m) := m.publish (l.plain offColor)
    { published := some generation, worker := { w with showingOff := true }, engine := e
      mailbox := m }

end Monitor68.Screen
