import Monitor68.Files.Basic
import Monitor68.Json.Lexer
import Monitor68.Json.Record
import Monitor68.Settings.Basic

/-!
# Reading settings

A file of settings is one JSON record, which lies over the defaults: a
setting that it does not name keeps its default.  The screen is a record
within it.  Settings are taken only if their screen fits in the address
space.
-/

namespace Monitor68

open Json

/-- Why settings could not be loaded. -/
inductive SettingsError where
  | file (error : Files.FileError)
  | text (fault : Json.Fault)
  | invalid (error : Screen.DoesNotFit)
deriving DecidableEq, Repr

def SettingsError.message : SettingsError → String
  | .file error => "failed to read config file: " ++ error.message
  | .text fault => "failed to parse config file: " ++ fault.message
  | .invalid error => "invalid config: " ++ error.message

namespace Json

def readUInt8 (tokens : List Token) : Read UInt8 :=
  (readBelow UInt8.size tokens).map fun (n, rest) => (UInt8.ofNat n, rest)

def readUInt32 (tokens : List Token) : Read UInt32 :=
  (readBelow UInt32.size tokens).map fun (n, rest) => (UInt32.ofNat n, rest)

def readUInt64 (tokens : List Token) : Read UInt64 :=
  (readBelow UInt64.size tokens).map fun (n, rest) => (UInt64.ofNat n, rest)

end Json

def Screen.Layout.fields : List (RecordField Screen.Layout) :=
  [.of "base_address" readUInt32 fun l base => { l with base },
   .of "width" readUInt32 fun l width => { l with width },
   .of "height" readUInt32 fun l height => { l with height },
   .of "frame_swap" readBool fun l frameSwap => { l with frameSwap },
   .of "refresh_rate_hz" readUInt32 fun l refreshRate => { l with refreshRate },
   .of "irq_line" readUInt8 fun l interruptLine => { l with interruptLine }]

namespace Settings

def fields : List (RecordField Settings) :=
  [.of "base_address" readUInt32 fun s base => { s with base },
   .of "stack_address" readUInt32 fun s stack => { s with stack },
   .of "poll_interval_ms" readUInt64 fun s pollInterval => { s with pollInterval },
   .of "screen" (readRecord Screen.Layout.fields {}) fun s screen => { s with screen }]

def parse (text : String) : Except Fault Settings := readWhole fields {} (lex text.toList)

/-- Refuse settings whose screen does not fit. -/
def checked (s : Settings) : Except SettingsError Settings :=
  match s.screen.validate with
  | .error error => .error (.invalid error)
  | .ok () => .ok s

/-- Load settings from an opened file. -/
def ofContents (contents : Files.Contents) : Except SettingsError Settings :=
  match contents.text with
  | .error error => .error (.file error)
  | .ok text =>
    match parse text with
    | .error fault => .error (.text fault)
    | .ok s => s.checked

def load (files : Files.FileSystem) (path : String) : Except SettingsError Settings :=
  match files.openFile path with
  | .error error => .error (.file error)
  | .ok contents => ofContents contents

end Settings

end Monitor68
