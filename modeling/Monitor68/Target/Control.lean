import Monitor68.Target.Engine

/-!
# Execution control

Single steps, power-down and the three conditions an engine can be in, as
the debugger presents them.  To power down an engine that is already down
is no error.
-/

namespace Monitor68

/-- The condition of an engine. -/
inductive Condition where
  | off
  | halted
  | running
deriving DecidableEq, Repr

namespace Control

variable {ε : Type} [Engine ε]

/-- Execute one instruction of a powered engine. -/
def step (e : ε) : Except EngineError ε :=
  if Engine.powered e then Engine.stepOne e else .error .notPowered

/-- Power the engine down.  The answer tells whether it was up. -/
def powerDown (e : ε) : Except EngineError (Bool × ε) :=
  match Engine.shutdown e with
  | .ok e' => .ok (true, e')
  | .error .alreadyShutdown => .ok (false, e)
  | .error error => .error error

/-- The condition the engine is in. -/
def condition (e : ε) : Condition :=
  if Engine.powered e then
    if Engine.running e then .running else .halted
  else .off

end Control

end Monitor68
