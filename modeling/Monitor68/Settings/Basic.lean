import Monitor68.Screen.Layout

/-!
# Settings

What a debugging session is told before it starts.  Every setting has a
default, so nothing need be said.
-/

namespace Monitor68

/-- The settings of a session. -/
structure Settings where
  /-- Where execution starts if an image does not say. -/
  base : UInt32 := 0x8000
  /-- The supervisor stack pointer after a reset. -/
  stack : UInt32 := 0x9200
  /-- The milliseconds between two refreshes of a running session. -/
  pollInterval : UInt64 := 100
  screen : Screen.Layout := {}
deriving DecidableEq, Repr

end Monitor68
