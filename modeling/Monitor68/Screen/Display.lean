import Monitor68.Screen.Worker

/-!
# The screen

The screen is a mailbox with a switch.  While it is on, a worker refreshes
the mailbox at the refresh rate, the first time at once.  Switching off
stops the worker and shows black.  The engine behind the screen can be
exchanged; the screen is off during the exchange and on again after it if
it was on before.
-/

namespace Monitor68.Screen

open Monitor68

/-- The screen; it is on while it has a worker. -/
structure Display where
  layout : Layout
  mailbox : Mailbox
  worker : Option Worker := none
deriving DecidableEq, Repr

namespace Display

def off (layout : Layout) : Display := { layout, mailbox := { latest := layout.plain idleColor } }

def isOn (d : Display) : Bool := d.worker.isSome

/-- Give the screen a worker; one that is on keeps its own. -/
def switchOn (d : Display) : Display :=
  match d.worker with
  | some _ => d
  | none => { d with worker := some { layout := d.layout } }

/-- Take the worker away and show black. -/
def switchOff (d : Display) : Display :=
  { d with worker := none, mailbox := (d.mailbox.publish (d.layout.plain idleColor)).2 }

/-- Switch over.  Whether the screen is on afterwards can be asked of it. -/
def toggle (d : Display) : Display := if d.isOn then d.switchOff else d.switchOn

/-- The screen off, and on again if it was on: what an exchange of the
engine does to it. -/
def restart (d : Display) : Display := if d.isOn then d.switchOff.switchOn else d.switchOff

variable {ε : Type} [Engine ε]

/-- Let the worker refresh once, if there is one. -/
def refresh (d : Display) (e : ε) : Display × ε :=
  match d.worker with
  | none => (d, e)
  | some w =>
    let t := w.tick e d.mailbox false
    ({ d with worker := some t.worker, mailbox := t.mailbox }, t.engine)

end Display

end Monitor68.Screen
