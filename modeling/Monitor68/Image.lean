import Monitor68.Files.Basic
import Monitor68.SRecord.Parser
import Monitor68.Target.Breakpoint

/-!
# Program images

An image is loaded in three stages.  First every line is read, and the
first one that is no text or no proper record ends the load before
anything has happened to the target.  Then the data records are placed in
target memory in the order of the image, so that a later record wins where
two overlap.  At last the breakpoints are cleared, a breakpoint is set at
the start address if the image names one, and the engine is reset to it.

A load that fails in the second or third stage leaves behind what was done
up to there, so the target is part of every answer.
-/

namespace Monitor68

open SRecord

/-- Where execution starts after a load. -/
structure EntryPoint where
  address : UInt32
  /-- Whether the image names the address. -/
  explicit : Bool
deriving DecidableEq, Repr

/-- Why an image could not be loaded. -/
inductive LoadError where
  | file (error : Files.FileError)
  /-- A line is no proper record; lines count from one. -/
  | malformed (line : Nat) (error : FormatError)
  | engine (error : EngineError)
deriving DecidableEq, Repr

def LoadError.message : LoadError → String
  | .file error => "failed to read program image: " ++ error.message
  | .malformed line error =>
    let line := Text.Numeral.decimal line
    "malformed S-record on line " ++ line ++ ": " ++ error.message
  | .engine error => "failed to write program into target: " ++ error.message

/-- The target as a load sees it: an engine, and the breakpoints that are
tracked on it. -/
structure Target (ε : Type) where
  engine : ε
  breakpoints : TrackedBreakpoints := {}

namespace Image

/-! ## Reading -/

/-- The records of an image whose first line has the given number. -/
def recordsFrom : Nat → List (Except Files.FileError String) → Except LoadError (List Record)
  | _, [] => .ok []
  | number, line :: rest =>
    match line with
    | .error fault => .error (.file fault)
    | .ok text =>
      match Record.parse text with
      | .error error => .error (.malformed number error)
      | .ok none => recordsFrom (number + 1) rest
      | .ok (some record) => (recordsFrom (number + 1) rest).map (record :: ·)

/-- The records of an image. -/
def records (lines : List (Except Files.FileError String)) : Except LoadError (List Record) :=
  recordsFrom 1 lines

/-- The start address that a record names. -/
def startOf : Record → Option UInt32
  | .start address => some address
  | .data _ _ => none

/-- The entry point of an image: the last start address it names, or else
the given base address. -/
def entryPoint (base : UInt32) (records : List Record) : EntryPoint :=
  match (records.filterMap startOf).getLast? with
  | some address => { address, explicit := true }
  | none => { address := base, explicit := false }

/-! ## Loading -/

variable {ε : Type} [Engine ε]

/-- Place the data records in memory, up to the first that cannot be. -/
def place : ε → List Record → ε × Except EngineError Unit
  | e, [] => (e, .ok ())
  | e, .start _ :: rest => place e rest
  | e, .data address payload :: rest =>
    match Engine.writeBlock e address payload with
    | (e', .error error) => (e', .error error)
    | (e', .ok ()) => place e' rest

/-- Set a breakpoint at an entry point that the image names. -/
def guardEntry (t : Target ε) (entry : EntryPoint) : Except EngineError (Target ε) :=
  if entry.explicit then
    (t.breakpoints.set t.engine entry.address .supervisor).map fun (_, breakpoints, engine) =>
      { engine, breakpoints }
  else .ok t

/-- Replace the breakpoints by the one that an entry point asks for, and
reset the engine to it. -/
def enter (t : Target ε) (entry : EntryPoint) (stack : UInt32) :
    Target ε × Except EngineError Unit :=
  let (breakpoints, engine) := TrackedBreakpoints.clear t.engine
  let cleared : Target ε := { engine, breakpoints }
  match guardEntry cleared entry with
  | .error error => (cleared, .error error)
  | .ok guarded =>
    match Engine.reset guarded.engine entry.address stack with
    | .error error => (guarded, .error error)
    | .ok engine => ({ guarded with engine }, .ok ())

/-- Load records into a target. -/
def install (t : Target ε) (base stack : UInt32) (records : List Record) :
    Target ε × Except LoadError EntryPoint :=
  match place t.engine records with
  | (engine, .error error) => ({ t with engine }, .error (.engine error))
  | (engine, .ok ()) =>
    let entry := entryPoint base records
    match enter { t with engine } entry stack with
    | (t', .error error) => (t', .error (.engine error))
    | (t', .ok ()) => (t', .ok entry)

/-- Load the lines of an image into a target. -/
def load (t : Target ε) (base stack : UInt32) (lines : List (Except Files.FileError String)) :
    Target ε × Except LoadError EntryPoint :=
  match records lines with
  | .error error => (t, .error error)
  | .ok records => install t base stack records

end Image

end Monitor68
