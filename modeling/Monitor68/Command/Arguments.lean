import Monitor68.Command.Basic
import Monitor68.Command.Grammar

/-!
# From words to commands

The words in front of the name of a command belong to the top level, and
the words behind it to the command.  The file of settings may be named at
both levels, and the one at the command counts.

At the top level a value that follows its option as a word of its own is
judged late: when the next option comes or when the whole command has been
read.  So a command that asks for help is served although its settings
could not be.
-/

namespace Monitor68.Command

/-! ## The grammars of the commands -/

def configRule : OptionRule :=
  { short := some 'c', long := "config", kind := .valued .path }

def helpRule : OptionRule := { short := some 'h', long := "help", kind := .help }

def versionRule : OptionRule := { short := some 'V', long := "version", kind := .version }

/-- The options that every command has. -/
def sharedRules : List OptionRule := [configRule, helpRule]

/-- The rows of a dump if their number is not given. -/
def defaultRows : Nat := 8

/-- The steps if their number is not given. -/
def defaultCount : Nat := 1

/-- The file of a picture if it is not named. -/
def defaultOut : String := "screen.ppm"

/-- A number that the grammar has admitted, or a default. -/
def countOr (default : Nat) (value : Option String) : Nat :=
  (value.bind fun value => (readCount value).toOption).getD default

/-- A command by name: its grammar, and what its words say. -/
structure CommandRule where
  name : String
  grammar : Grammar
  build : Words → Option Command

def loadRule : CommandRule where
  name := "load"
  grammar := { options := sharedRules, positions := [{ kind := .path }] }
  build w :=
    match w.positional with
    | [image] => some (.load image)
    | _ => none

def listingRule : CommandRule where
  name := "listing"
  grammar := { options := sharedRules, positions := [{ kind := .path }] }
  build w :=
    match w.positional with
    | [file] => some (.listing file)
    | _ => none

def watchRule : CommandRule where
  name := "watch"
  grammar :=
    { options := sharedRules
      positions := [{ kind := .path }, { kind := .text, repeated := true }] }
  build w :=
    match w.positional with
    | image :: watches => some (.watch image watches)
    | [] => none

def dumpRule : CommandRule where
  name := "dump"
  grammar :=
    { options := sharedRules
      positions := [{ kind := .path }, { kind := .text }, { kind := .count, required := false }] }
  build w :=
    match w.positional with
    | image :: address :: rows => some (.dump image address (countOr defaultRows rows.head?))
    | _ => none

def stepRule : CommandRule where
  name := "step"
  grammar :=
    { options :=
        { short := some 'n', long := "count", kind := .valued .count } ::
        { short := some 'l', long := "listing", kind := .valued .path } :: sharedRules
      positions := [{ kind := .path }] }
  build w :=
    match w.positional with
    | [image] => some (.step image (countOr defaultCount (w.value? "count")) (w.value? "listing"))
    | _ => none

def screenRule : CommandRule where
  name := "screen"
  grammar :=
    { options :=
        { short := some 'o', long := "out", kind := .valued .path } ::
        { long := "frame-swap", kind := .flag } :: sharedRules
      positions := [{ kind := .path }] }
  build w :=
    match w.positional with
    | [image] => some (.screen image ((w.value? "out").getD defaultOut) (w.has "frame-swap"))
    | _ => none

def rules : List CommandRule :=
  [loadRule, listingRule, watchRule, dumpRule, stepRule, screenRule]

/-- The name of the command that explains another. -/
def helpName : String := "help"

/-! ## The top level -/

/-- The grammar of the words in front of a command. -/
def topGrammar : Grammar := { options := [configRule, helpRule, versionRule] }

/-- The top level behind some words. -/
structure Top where
  words : Words := {}
  /-- Whether a value that is still to be judged will not do. -/
  spoiled : Bool := false
deriving DecidableEq, Repr

/-- Take note of the file of settings, named in a word of its own. -/
def Top.noteLate (t : Top) (value : String) : Top :=
  match Grammar.note t.words configRule .path value with
  | .ok words => { t with words }
  | .error _ => { t with spoiled := true }

/-- The answer to the words behind the command that explains others: help
on one command or on itself. -/
def explain : List String → Halt
  | [] => .help
  | [name] => if name = helpName ∨ rules.any (·.name == name) then .help else .misuse
  | _ => .misuse

/-- What the words behind the name of a command say. -/
def readCommand (t : Top) (rule : CommandRule) (rest : List String) : Except Halt Invocation :=
  match rule.grammar.read {} rest with
  | .error halt => .error halt
  | .ok words =>
    match t.spoiled, rule.build words with
    | false, some command =>
      let settings := (words.value? configRule.long).or (t.words.value? configRule.long)
      .ok { settings, command }
    | _, _ => .error .misuse

/-- What the words of a command line say, behind those that the top level
knows. -/
def readTop (t : Top) : List String → Except Halt Invocation
  | [] => .error .misuse
  | word :: rest =>
    match dashed? word with
    | none =>
      if word = helpName then .error (explain rest)
      else
        match rules.find? (·.name == word) with
        | some rule => readCommand t rule rest
        | none => .error .misuse
    | some d =>
      match t.spoiled, topGrammar.rule? d with
      | false, some (rule, value) =>
        match rule.kind, value, rest with
        | .help, _, _ => .error (if Grammar.hasExcess d then .misuse else .help)
        | .version, _, _ => .error (if Grammar.hasExcess d then .misuse else .version)
        | .valued kind, some value, rest =>
          match Grammar.note t.words rule kind value with
          | .error halt => .error halt
          | .ok words => readTop { t with words } rest
        | .valued _, none, value :: rest =>
          if isValueWord value then readTop (t.noteLate value) rest else .error .misuse
        | .valued _, none, [] => .error .misuse
        | .flag, _, _ => .error .misuse
      | _, _ => .error .misuse

end Monitor68.Command

namespace Monitor68

/-- What the words of a command line say. -/
def Invocation.ofArguments (words : List String) : Except Command.Halt Invocation :=
  Command.readTop {} words

end Monitor68
