import Monitor68.Session.Basic
import Monitor68.Settings.Reader
import Monitor68.Screen.Compose

/-!
# Reports

What a command leaves behind: lines of output, at most one file, and the
failure that ended it if one did.  A failure is told with its causes, from
the nearest to the last; a single cause stands alone, and several are
numbered.
-/

namespace Monitor68.Command

/-- A failure: what failed, and why. -/
structure Failure where
  message : String
  /-- The causes, nearest first. -/
  causes : List String := []
deriving DecidableEq, Repr

/-- What a command leaves behind. -/
structure Report where
  lines : List String := []
  /-- The file that is written: its path and its bytes. -/
  written : Option (String × List UInt8) := none
  failure : Option Failure := none
deriving DecidableEq, Repr

namespace Failure

def numbered (cause : String) (index : Nat) : String :=
  let place := Text.Numeral.decimal index
  let gap := String.ofList (List.replicate (5 - place.length) ' ')
  s!"{gap}{place}: {cause}"

def causeLines : List String → List String
  | [] => []
  | [cause] => ["", "Caused by:", "    " ++ cause]
  | causes => ["", "Caused by:"] ++ causes.zipIdx.map fun (cause, i) => numbered cause i

def lines (f : Failure) : List String := ("Error: " ++ f.message) :: causeLines f.causes

end Failure

/-! ## Causes -/

def formatCauses : SRecord.FormatError → List String
  | .invalidHex fault => [fault.message]
  | .truncated _ _ => []
  | .recordTooLong _ => []

def loadCauses : LoadError → List String
  | .file error => [error.message]
  | .malformed _ error => error.message :: formatCauses error
  | .engine error => [error.message]

def sessionCauses : SessionError → List String
  | .load error => loadCauses error
  | _ => []

def settingsCauses : SettingsError → List String
  | .file error => [error.message]
  | .text fault => [fault.message]
  | .invalid _ => []

namespace Failure

def ofSession (error : SessionError) : Failure :=
  { message := error.message, causes := sessionCauses error }

/-- A failure said to be part of a greater one. -/
def within (f : Failure) (context : String) : Failure :=
  { message := context, causes := f.message :: f.causes }

end Failure

namespace Report

def failed (f : Failure) : Report := { failure := some f }

/-- The exit code of a command with this report. -/
def code (r : Report) : Nat := if r.failure.isSome then 1 else 0

/-- Lines as text, each with a line feed behind it. -/
def text (lines : List String) : String := String.join (lines.map (· ++ "\n"))

/-- The standard output. -/
def output (r : Report) : String := text r.lines

/-- The standard error stream. -/
def errors (r : Report) : String := text ((r.failure.map Failure.lines).getD [])

end Report

end Monitor68.Command
