import Monitor68.Text.Line

/-!
# Files as the debugger sees them

The debugger opens files by path, reads them to their end, asks whether a
path is that of a regular file, and writes files whole.  A `FileSystem`
answers these questions.  Reading may fail after any number of bytes, so
opening a file yields its `Contents`: the bytes that can be read and the
fault that ends the reading, if one does.  A directory can be opened and
fails at its first byte.
-/

namespace Monitor68.Files

open Monitor68.Text

/-- Why a file cannot be opened, read or written. -/
inductive FileError where
  | notFound
  | notADirectory
  | isADirectory
  | nameTooLong
  | nulInPath
  | invalidUtf8
  /-- Any other failure, in the system's words. -/
  | other (message : String)
deriving DecidableEq, Repr

def FileError.message : FileError → String
  | .notFound => "No such file or directory (os error 2)"
  | .notADirectory => "Not a directory (os error 20)"
  | .isADirectory => "Is a directory (os error 21)"
  | .nameTooLong => "File name too long (os error 36)"
  | .nulInPath => "file name contained an unexpected NUL byte"
  | .invalidUtf8 => "stream did not contain valid UTF-8"
  | .other message => message

/-- What an opened file gives: its bytes, and the fault that comes after
them if the end cannot be reached. -/
structure Contents where
  bytes : List UInt8
  fault : Option FileError := none
deriving DecidableEq, Repr

/-- One line of a file as text. -/
def decodeLine (bytes : List UInt8) : Except FileError String :=
  match decodeUtf8 bytes with
  | some text => .ok text
  | none => .error .invalidUtf8

/-- The lines of a file in order, each as text or as the reason that it is
none.  A fault takes the place of the line it interrupts and is the last
entry. -/
def Contents.lines (c : Contents) : List (Except FileError String) :=
  let (ended, last) := splitLines c.bytes
  let complete := ended.map decodeLine
  match c.fault with
  | some fault => complete ++ [.error fault]
  | none => if last = [] then complete else complete ++ [decodeLine last]

/-- The whole file as text. -/
def Contents.text (c : Contents) : Except FileError String :=
  match c.fault with
  | some fault => .error fault
  | none => decodeLine c.bytes

/-- The texts in front of the first line that is none. -/
def readableLines : List (Except FileError String) → List String
  | .ok line :: rest => line :: readableLines rest
  | _ => []

/-- The files within reach of the debugger. -/
structure FileSystem where
  /-- Open a file for reading. -/
  openFile : String → Except FileError Contents
  /-- Whether a path is that of a regular file. -/
  isFile : String → Bool
  /-- Why no file can be written at a path, if none can. -/
  obstacle : String → Option FileError

end Monitor68.Files
