import Monitor68.Session.Basic

/-!
# Execution in a session

Single steps, continuous execution, and the three ways to end it.  While
the engine executes continuously, a task polls it: each poll refreshes the
watched variables, and the first one that finds the engine halted ends the
task.  To stop, to power off and to reset all end the task and power the
engine down first.
-/

namespace Monitor68.Session

variable {ε : Type} [Engine ε]

/-- Execute one instruction.  The watched variables are brought up to date,
and the answer is the view afterwards. -/
def step (s : Session ε) : Result ε View :=
  if Engine.powered s.engine then
    if Engine.running s.engine then s.fail .running
    else
      match Control.step s.engine with
      | .error error => s.fail (.engine error)
      | .ok engine =>
        let s := (({ s with engine } : Session ε).enter .stepping).refreshWatches
        (.ok (.of s.engine s.listing s.watches.watches), s)
  else s.fail .notPowered

/-! ## Continuous execution -/

/-- One turn of the polling task. -/
def poll (s : Session ε) : Session ε :=
  if s.polling then
    let s := s.refreshWatches
    let s := s.emit (.refreshed (.of s.engine s.listing s.watches.watches))
    if Engine.running s.engine then s
    else
      let s := if s.state = .running then s.enter .halted else s
      { s with polling := false }
  else s

/-- Begin to execute continuously and to poll.  A session that polls already
is left alone. -/
def run (s : Session ε) : Result ε Unit :=
  if Engine.powered s.engine then
    if s.polling then (.ok (), s)
    else
      match Engine.run s.engine with
      | .error error => s.fail (.engine error)
      | .ok engine =>
        let s := ({ s with engine } : Session ε).enter .running
        (.ok (), { s with polling := true })
  else s.fail .notPowered

/-! ## Ending -/

/-- Stop polling and power the engine down. -/
def powerDown (s : Session ε) : Result ε Unit :=
  let s := { s with polling := false }
  match Control.powerDown s.engine with
  | .error error => s.fail (.engine error)
  | .ok (_, engine) => (.ok (), { s with engine })

def stop (s : Session ε) : Result ε Unit :=
  match s.powerDown with
  | (.error error, s) => (.error error, s)
  | (.ok (), s) => (.ok (), s.enter .halted)

def powerOff (s : Session ε) : Result ε Unit :=
  match s.powerDown with
  | (.error error, s) => (.error error, s)
  | (.ok (), s) => (.ok (), s.enter .poweredOff)

/-- Start over with a fresh engine.  Breakpoints and listing are dropped,
and the watched variables are kept. -/
def reset (s : Session ε) : Result ε Unit :=
  match s.powerDown with
  | (.error error, s) => (.error error, s)
  | (.ok (), s) =>
    let s := { s with engine := s.fresh, breakpoints := .empty, listing := none }
    (.ok (), s.enter .unloaded)

end Monitor68.Session
