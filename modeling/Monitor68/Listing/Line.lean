import Monitor68.Text.Blank
import Monitor68.Text.Numeral

/-!
# Lines of an assembler listing

An assembler listing holds two kinds of lines that matter to a debugger.
A code line begins with a field `SS:AAAAAAAA`, a section and an address in
hexadecimal, and carries the number of its source line, which stands as
`<n>:` after the code bytes.  A symbol line begins with a name and carries
a field `A:AAAAAAAA`.  Every other line says nothing and is passed over.
-/

namespace Monitor68.Listing

open Monitor68.Text

/-- Whether a character is a hexadecimal digit of either case. -/
def isHexDigit (c : Char) : Bool :=
  ('0' ≤ c && c ≤ '9') || ('a' ≤ c && c ≤ 'f') || ('A' ≤ c && c ≤ 'F')

/-- Whether a character is a punctuation mark of ASCII. -/
def isPunctuation (c : Char) : Bool :=
  ('!' ≤ c && c ≤ '/') || (':' ≤ c && c ≤ '@') || ('[' ≤ c && c ≤ '\x60') ||
    ('\x7b' ≤ c && c ≤ '~')

/-- The number that exactly eight hexadecimal digits spell. -/
def address? (cs : List Char) : Option UInt32 :=
  if cs.length = 8 ∧ cs.all isHexDigit then (Numeral.readWord 16 cs).toOption else none

/-- The address of a field `SS:AAAAAAAA`. -/
def codeField? : List Char → Option UInt32
  | s₁ :: s₂ :: ':' :: rest =>
    if isHexDigit s₁ && isHexDigit s₂ then address? rest else none
  | _ => none

/-- Whether a word is a number followed by a colon. -/
def isLineMark (word : List Char) : Bool :=
  match word.reverse with
  | ':' :: d :: ds => (d :: ds).all fun c => '0' ≤ c && c ≤ '9'
  | _ => false

/-- The number that a word spells once punctuation at its end is taken
off. -/
def lineNumber? (word : List Char) : Option UInt32 :=
  (Numeral.readWord 10 (word.reverse.dropWhile isPunctuation).reverse).toOption

/-- What a code line of at least three words says: its address and its
source line.  The first line mark after the address field decides, and
without one the last word does. -/
def codeLine? (line : List Char) : Option (UInt32 × UInt32) :=
  match words line with
  | field :: w₁ :: w₂ :: rest =>
    match codeField? field with
    | none => none
    | some address =>
      let later := w₁ :: w₂ :: rest
      let mark := (later.find? isLineMark).getD (later.getLast (by simp [later]))
      (lineNumber? mark).map (address, ·)
  | _ => none

/-- The address of a field `A:AAAAAAAA`. -/
def symbolField? : List Char → Option UInt32
  | 'A' :: ':' :: rest => address? rest
  | _ => none

/-- What a symbol line says: a name, and the address in the first field
after it that is one. -/
def symbolLine? (line : List Char) : Option (String × UInt32) :=
  match words line with
  | name :: later => (later.findSome? symbolField?).map (String.ofList name, ·)
  | [] => none

/-- The words that open the table of symbols. -/
def symbolsHeader : List Char := "Symbols by name".toList

/-- Whether a line opens the table of symbols. -/
def opensSymbols (line : List Char) : Bool := symbolsHeader.isPrefixOf (trimLeft line)

/-- Whether a line holds nothing but white space. -/
def isBlankLine (line : List Char) : Bool := line.all isBlank

end Monitor68.Listing
