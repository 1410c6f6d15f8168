/-!
# Commands

What the command line can ask for.  Every command but the listing loads a
program image into the simulator first.
-/

namespace Monitor68

inductive Command where
  /-- Report the entry point of an image. -/
  | load (image : String)
  /-- Print a listing. -/
  | listing (file : String)
  /-- Show the values at addresses; each address is given as a word, with an
  encoding behind a colon if one is wanted. -/
  | watch (image : String) (watches : List String)
  /-- Dump memory around an address. -/
  | dump (image address : String) (rows : Nat)
  /-- Execute single steps. -/
  | step (image : String) (count : Nat) (listing : Option String)
  /-- Compose one frame and write it as a picture. -/
  | screen (image out : String) (frameSwap : Bool)
deriving DecidableEq, Repr

/-- A command, and the file of settings to perform it under. -/
structure Invocation where
  settings : Option String
  command : Command
deriving DecidableEq, Repr

end Monitor68
