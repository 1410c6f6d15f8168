import Monitor68.Text.Blank

/-!
# Encodings

An encoding is a way to show the bytes at an address: as a number of one,
two or four bytes in one of three forms, as one character, or as a string
that a zero byte ends.  Each encoding has a label for menus and a short
name for the command line, and either names it in any letter case.
-/

namespace Monitor68

/-- The sizes of numbers in target memory. -/
inductive Size where
  | byte
  | word
  | long
deriving DecidableEq, Repr

namespace Size

def width : Size → Nat
  | byte => 1
  | word => 2
  | long => 4

def name : Size → String
  | byte => "byte"
  | word => "word"
  | long => "long"

def bits : Size → String
  | byte => "8"
  | word => "16"
  | long => "32"

end Size

/-- The forms in which a number is shown: decimal, decimal of the two's
complement, and hexadecimal. -/
inductive Form where
  | unsigned
  | signed
  | hex
deriving DecidableEq, Repr

namespace Form

def name : Form → String
  | unsigned => "Unsigned"
  | signed => "Signed"
  | hex => "Hex"

/-- The letter that stands for the form in short names. -/
def letter : Form → String
  | unsigned => "u"
  | signed => "i"
  | hex => "x"

end Form

/-- A way to show the bytes at an address. -/
inductive Encoding where
  | number (size : Size) (form : Form)
  | character
  | string
deriving DecidableEq, Repr

namespace Encoding

/-- The encoding of a watch that names none. -/
def unsignedByte : Encoding := .number .byte .unsigned

/-- Every encoding, in menu order. -/
def all : List Encoding :=
  ([.byte, .word, .long] : List Size).flatMap
      (fun size => ([.unsigned, .signed, .hex] : List Form).map (number size)) ++
    [character, string]

/-- The name in menus. -/
def label : Encoding → String
  | .number size form => form.name ++ " " ++ size.name
  | .character => "ASCII char"
  | .string => "Null terminated string"

/-- The name on the command line. -/
def shortName : Encoding → String
  | .number size form => form.letter ++ size.bits
  | .character => "char"
  | .string => "str"

/-- The number of bytes shown; a string has no fixed one. -/
def width : Encoding → Option Nat
  | .number size _ => some size.width
  | .character => some 1
  | .string => none

/-- A text that names no encoding. -/
structure Unknown where
  text : String
deriving DecidableEq, Repr

/-- The wording of the complaint about an unknown name. -/
def Unknown.message (u : Unknown) : String := "unknown encoding '" ++ u.text ++ "'"

/-- Whether two texts differ at most in the case of ASCII letters. -/
def sameLetters (a b : List Char) : Bool := a.map Char.toLower == b.map Char.toLower

/-- Whether a text is the label or the short name of an encoding. -/
def isNamed (e : Encoding) (name : List Char) : Bool :=
  sameLetters e.label.toList name || sameLetters e.shortName.toList name

/-- The encoding that a text names.  White space around the name does not
matter. -/
def ofName (text : String) : Except Unknown Encoding :=
  match all.find? (·.isNamed (Text.trim text.toList)) with
  | some e => .ok e
  | none => .error ⟨text⟩

end Encoding

end Monitor68
