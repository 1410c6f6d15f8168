import Monitor68.Text.Numeral

/-!
# The grammar of a command line

A level of a command line is what one command understands: named options,
and values told by their position.  Words are taken from left to right,
and the first one that is wrong, or that asks for help or for the version,
decides the outcome.

An option is written `-x` or `--name`.  Its value follows as the next
word, or in the same word behind an equals sign or, after the short form,
directly.  A following word that begins with a dash is no value, except a
lone dash.  The word `--` makes all words behind it positional.
-/

namespace Monitor68.Command

/-- What a value on a command line stands for. -/
inductive ValueKind where
  /-- The path of a file, which is not empty. -/
  | path
  | text
  /-- A number of 64 bits. -/
  | count
deriving DecidableEq, Repr

/-- The number that a value stands for. -/
def readCount (value : String) : Except Text.Numeral.Fault Nat :=
  Text.Numeral.read 10 UInt64.size value.toList

/-- Whether a value is of a kind. -/
def ValueKind.admits (kind : ValueKind) (value : String) : Bool :=
  match kind with
  | .path => value != ""
  | .text => true
  | .count => (readCount value).toBool

inductive OptionKind where
  /-- It takes a value, at most once. -/
  | valued (kind : ValueKind)
  /-- It stands alone, at most once. -/
  | flag
  | help
  | version
deriving DecidableEq, Repr

structure OptionRule where
  short : Option Char := none
  long : String
  kind : OptionKind
deriving DecidableEq, Repr

structure PositionRule where
  kind : ValueKind
  required : Bool := true
  /-- Whether any number of values may follow the first. -/
  repeated : Bool := false
deriving DecidableEq, Repr

structure Grammar where
  options : List OptionRule
  positions : List PositionRule := []
deriving DecidableEq, Repr

/-- Why a command line asks for no command to be performed. -/
inductive Halt where
  | misuse
  | help
  | version
deriving DecidableEq, Repr

/-- The exit code of a command line that asks for no command. -/
def Halt.code : Halt → Nat
  | .misuse => 2
  | .help => 0
  | .version => 0

/-- The words of a level once they are told apart: options by their long
names, with their values, and positional values in order. -/
structure Words where
  options : List (String × String) := []
  positional : List String := []
deriving DecidableEq, Repr

namespace Words

def value? (w : Words) (long : String) : Option String := w.options.lookup long

/-- Whether an option is given. -/
def has (w : Words) (long : String) : Bool := (w.value? long).isSome

end Words

/-! ## Options -/

/-- A word that is written as an option: its name, and the text that stands
in the same word. -/
inductive Dashed where
  | short (name : Char) (attached : List Char)
  | long (name : List Char) (value : Option (List Char))
deriving DecidableEq, Repr

/-- A word as an option, if it is written as one.  A lone dash and a double
dash are not. -/
def dashed? (word : String) : Option Dashed :=
  match word.toList with
  | ['-', '-'] => none
  | '-' :: '-' :: rest =>
    match rest.dropWhile (· != '=') with
    | _ :: value => some (.long (rest.takeWhile (· != '=')) (some value))
    | [] => some (.long rest none)
  | '-' :: c :: rest => some (.short c rest)
  | _ => none

/-- Whether a word can be the value of an option in front of it. -/
def isValueWord (word : String) : Bool := word == "-" || word.toList.head? != some '-'

/-- The value that stands in the same word as a short option. -/
def attachedValue : List Char → Option String
  | [] => none
  | '=' :: value => some (String.ofList value)
  | value => some (String.ofList value)

namespace Grammar

/-- The rule of an option, and the value in the same word. -/
def rule? (g : Grammar) : Dashed → Option (OptionRule × Option String)
  | .short name attached =>
    (g.options.find? (·.short == some name)).map (·, attachedValue attached)
  | .long name value =>
    (g.options.find? (·.long.toList == name)).map (·, value.map String.ofList)

/-- Take note of an option; it must not be known already, and its value must
suit. -/
def note (w : Words) (rule : OptionRule) (kind : ValueKind) (value : String) :
    Except Halt Words :=
  if w.has rule.long || !kind.admits value then .error .misuse
  else .ok { w with options := (rule.long, value) :: w.options }

/-- Whether a word that stands for an option without a value has text
behind the name.  More short options may follow a short one, and what they
are does not matter where the first one ends the reading. -/
def hasText : Dashed → Bool
  | .short _ attached => !attached.isEmpty
  | .long _ value => value.isSome

/-- Whether text that belongs to no option stands in the word of an option
that ends the reading. -/
def hasExcess : Dashed → Bool
  | .short _ _ => false
  | .long _ value => value.isSome

/-- The rule for the positional value behind so many others. -/
def position? (g : Grammar) (index : Nat) : Option PositionRule :=
  match g.positions[index]? with
  | some rule => some rule
  | none => g.positions.getLast?.filter (·.repeated)

def place (g : Grammar) (w : Words) (value : String) : Except Halt Words :=
  match g.position? w.positional.length with
  | none => .error .misuse
  | some rule =>
    if rule.kind.admits value then .ok { w with positional := w.positional ++ [value] }
    else .error .misuse

def placeAll (g : Grammar) (w : Words) (values : List String) : Except Halt Words :=
  values.foldlM g.place w

/-- Whether all required positional values are there. -/
def isComplete (g : Grammar) (w : Words) : Bool :=
  (g.positions.filter (·.required)).length ≤ w.positional.length

/-- Tell words of a level apart, behind those that are known. -/
def read (g : Grammar) (w : Words) : List String → Except Halt Words
  | [] => if g.isComplete w then .ok w else .error .misuse
  | "--" :: rest =>
    match g.placeAll w rest with
    | .error halt => .error halt
    | .ok w => if g.isComplete w then .ok w else .error .misuse
  | word :: rest =>
    match dashed? word with
    | none =>
      match g.place w word with
      | .error halt => .error halt
      | .ok w => g.read w rest
    | some d =>
      match g.rule? d with
      | none => .error .misuse
      | some (rule, value) =>
        match rule.kind, value, rest with
        | .help, _, _ => .error (if hasExcess d then .misuse else .help)
        | .version, _, _ => .error (if hasExcess d then .misuse else .version)
        | .flag, _, rest =>
          if hasText d then .error .misuse
          else
            match note w rule .text "" with
            | .error halt => .error halt
            | .ok w => g.read w rest
        | .valued kind, some value, rest =>
          match note w rule kind value with
          | .error halt => .error halt
          | .ok w => g.read w rest
        | .valued kind, none, value :: rest =>
          if isValueWord value then
            match note w rule kind value with
            | .error halt => .error halt
            | .ok w => g.read w rest
          else .error .misuse
        | .valued _, none, [] => .error .misuse

end Grammar

end Monitor68.Command
