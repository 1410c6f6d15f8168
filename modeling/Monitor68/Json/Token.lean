/-!
# Tokens of structured text

Settings are written as JSON.  A text is first cut into tokens, and
readers then work on the list of tokens.

The cut is the same whatever a reader expects, but a token can be faulty,
and how grave the fault is depends on the reader.  So a string keeps the
pieces in front of its fault, and a number that stops too soon only says
whether the text ended there.  Nothing follows a faulty token, for no
reader gets past one.
-/

namespace Monitor68.Json

/-- Why a text cannot be read: it is malformed, a well-formed value does not
suit its place, or the text ends too soon. -/
inductive Fault where
  | malformed
  | unsuitable
  | unfinished
deriving DecidableEq, Repr

def Fault.message : Fault → String
  | .malformed => "malformed text"
  | .unsuitable => "unsuitable value"
  | .unfinished => "unexpected end of text"

/-- A piece of a string: a character, or a 16-bit code unit that was written
as a hexadecimal escape. -/
inductive Piece where
  | character (c : Char)
  | unit (code : Nat)
deriving DecidableEq, Repr

/-- A number as it is written: a sign, digits, digits behind a point, and an
exponent.  The digits are kept as their values. -/
structure Numeral where
  negative : Bool := false
  whole : List Nat
  /-- The digits behind the point; there is no point if there are none. -/
  fraction : List Nat := []
  exponent : Option Int := none
deriving DecidableEq, Repr

inductive Token where
  | beginObject
  | endObject
  | beginArray
  | endArray
  | comma
  | colon
  | null
  | bool (value : Bool)
  | number (n : Numeral)
  /-- A string, and the fault that ends it if no quote does. -/
  | string (pieces : List Piece) (fault : Option Fault)
  /-- A number that lacks a digit it needs, and whether the text ends
  there. -/
  | cutNumber (atEnd : Bool)
  /-- A word that goes wrong. -/
  | cutWord (fault : Fault)
  /-- A character that begins no token. -/
  | stray
deriving DecidableEq, Repr

end Monitor68.Json
