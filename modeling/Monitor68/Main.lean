import Monitor68.Command.Arguments
import Monitor68.Command.Perform
import Monitor68.Command.Usage

/-!
# The program

The outer layer: it reads the files that the command line names, has the
command performed on them, and prints the report.  A picture is written
last; if the system refuses that, the report is made again with the
refusal as an obstacle.
-/

namespace Monitor68.Program

open Command Files

/-- A failure of the system as a file error. -/
def faultOf : IO.Error → FileError
  | .noFileOrDirectory .. => .notFound
  | .inappropriateType .. => .isADirectory
  | error => .other error.toString

/-- Read an opened file to its end. -/
def readToEnd (handle : IO.FS.Handle) : IO Contents := do
  try
    let bytes ← handle.readBinToEnd
    return { bytes := bytes.toList }
  catch error => return { bytes := [], fault := some (faultOf error) }

def readContents (path : String) : IO (Except FileError Contents) := do
  try
    let handle ← IO.FS.Handle.mk path .read
    return .ok (← readToEnd handle)
  catch error => return .error (faultOf error)

/-- Write a file; the answer is the refusal if there is one. -/
def writeContents (path : String) (bytes : List UInt8) : IO (Option FileError) := do
  try
    IO.FS.writeBinFile path ⟨bytes.toArray⟩
    return none
  catch error => return some (faultOf error)

/-- The files that a command reads. -/
def namedFiles : Command → List String
  | .load image => [image]
  | .listing file => [file]
  | .watch image _ => [image]
  | .dump image _ _ => [image]
  | .step image _ path => image :: path.toList
  | .screen image _ _ => [image]

/-- Files that were read, as a file system in which writing meets the given
obstacle. -/
def fileSystem (read : List (String × Except FileError Contents))
    (obstacle : Option FileError) : FileSystem where
  openFile path := (read.lookup path).getD (.error .notFound)
  isFile path :=
    match read.lookup path with
    | some (.ok { fault := none, .. }) => true
    | _ => false
  obstacle _ := obstacle

/-- Perform an invocation on the files of the system. -/
def performHere (i : Invocation) : IO Report := do
  let read ← (i.settings.toList ++ namedFiles i.command).mapM fun path => do
    return (path, ← readContents path)
  let report := perform (fileSystem read none) i
  match report.written with
  | none => return report
  | some (path, bytes) =>
    match ← writeContents path bytes with
    | none => return report
    | some fault => return perform (fileSystem read (some fault)) i

end Monitor68.Program

open Monitor68 Monitor68.Command Monitor68.Program in
/-- The program. -/
def main (args : List String) : IO UInt32 := do
  match Invocation.ofArguments args with
  | .error .misuse =>
    IO.eprint (Report.text Halt.misuse.lines)
    return UInt32.ofNat Halt.misuse.code
  | .error halt =>
    IO.print (Report.text halt.lines)
    return UInt32.ofNat halt.code
  | .ok i =>
    let report ← performHere i
    IO.print report.output
    IO.eprint report.errors
    return UInt32.ofNat report.code
