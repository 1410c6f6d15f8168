import Monitor68.Screen.Frame

/-!
# Mailboxes

A mailbox holds the most recent complete frame and counts how many were
published.  To publish is to replace the frame, so a reader sees one whole
frame or another and never a mixture.
-/

namespace Monitor68

/-- The holder of the most recent frame. -/
structure Mailbox where
  latest : Frame
  /-- The number of frames published so far.  Where it is kept as a word of 64
  bits it does not wrap either: with a frame each nanosecond that would take
  more than five hundred years. -/
  generation : Nat := 0
deriving DecidableEq, Repr

namespace Mailbox

/-- Replace the frame.  The answer is the number of frames published. -/
def publish (m : Mailbox) (frame : Frame) : Nat × Mailbox :=
  (m.generation + 1, { latest := frame, generation := m.generation + 1 })

end Mailbox

end Monitor68
