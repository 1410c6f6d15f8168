import Monitor68.Json.Token

/-!
# Cutting a text into tokens

White space is the blank, the tab, the line feed and the carriage return.
A string runs to its closing quote and may hold any character but the
control characters; a backslash begins an escape.  A number is an optional
minus sign, digits without superfluous leading zeros, and optionally a
fraction and an exponent.  The three words are `true`, `false` and `null`.
-/

namespace Monitor68.Json

/-- Whether a character is white space between tokens. -/
def isSpace (c : Char) : Bool := c == ' ' || c == '\t' || c == '\n' || c == '\r'

def digit? (c : Char) : Option Nat :=
  if '0' ≤ c ∧ c ≤ '9' then some (c.toNat - '0'.toNat) else none

def hexDigit? (c : Char) : Option Nat :=
  if '0' ≤ c ∧ c ≤ '9' then some (c.toNat - '0'.toNat)
  else if 'a' ≤ c ∧ c ≤ 'f' then some (c.toNat - 'a'.toNat + 10)
  else if 'A' ≤ c ∧ c ≤ 'F' then some (c.toNat - 'A'.toNat + 10)
  else none

/-! ## Strings -/

/-- The character that a short escape stands for. -/
def shortEscape? : Char → Option Char
  | '"' => some '"'
  | '\\' => some '\\'
  | '/' => some '/'
  | 'b' => some '\x08'
  | 'f' => some '\x0c'
  | 'n' => some '\n'
  | 'r' => some '\r'
  | 't' => some '\t'
  | _ => none

/-- The code unit that four hexadecimal digits spell. -/
def codeUnit? (a b c d : Char) : Option Nat :=
  match hexDigit? a, hexDigit? b, hexDigit? c, hexDigit? d with
  | some a, some b, some c, some d => some (((a * 16 + b) * 16 + c) * 16 + d)
  | _, _, _, _ => none

/-- The fault of a hexadecimal escape that fewer than four characters
follow.  The text counts as unfinished if they take fewer than four bytes. -/
def shortHexFault (rest : List Char) : Fault :=
  if rest.foldl (fun size c => size + c.utf8Size) 0 < 4 then .unfinished else .malformed

/-- A string as it was scanned: its pieces, its fault, and the text behind
it. -/
structure ScannedString where
  pieces : List Piece := []
  fault : Option Fault := none
  rest : List Char := []

/-- The scanned string with a piece put in front. -/
def ScannedString.cons (piece : Piece) (s : ScannedString) : ScannedString :=
  { s with pieces := piece :: s.pieces }

/-- A string that a fault ends at once. -/
def ScannedString.faulty (fault : Fault) : ScannedString := { fault := some fault }

/-- Scan a string from behind its opening quote. -/
def scanString : List Char → ScannedString
  | [] => .faulty .unfinished
  | '"' :: rest => { rest }
  | '\\' :: [] => .faulty .unfinished
  | '\\' :: 'u' :: a :: b :: c :: d :: rest =>
    match codeUnit? a b c d with
    | some code => (scanString rest).cons (.unit code)
    | none => .faulty .malformed
  | '\\' :: 'u' :: rest => .faulty (shortHexFault rest)
  | '\\' :: e :: rest =>
    match shortEscape? e with
    | some c => (scanString rest).cons (.character c)
    | none => .faulty .malformed
  | c :: rest =>
    if c.toNat < 0x20 then .faulty .malformed else (scanString rest).cons (.character c)

/-! ## Numbers -/

/-- The digits at the front of a text, and the text behind them. -/
def scanDigits : List Char → List Nat × List Char
  | [] => ([], [])
  | c :: cs =>
    match digit? c with
    | none => ([], c :: cs)
    | some d =>
      let (ds, rest) := scanDigits cs
      (d :: ds, rest)

/-- The number that decimal digits spell. -/
def decimalValue (digits : List Nat) : Nat := digits.foldl (fun n d => n * 10 + d) 0

/-- Scan an exponent from behind its letter: its value, unless it lacks
digits, and the text behind it. -/
def scanExponent (cs : List Char) : Option Int × List Char :=
  let (sign, cs) : Int × List Char :=
    match cs with
    | '-' :: cs => (-1, cs)
    | '+' :: cs => (1, cs)
    | cs => (1, cs)
  match scanDigits cs with
  | ([], rest) => (none, rest)
  | (digits, rest) => (some (sign * decimalValue digits), rest)

/-- The token for a number that lacks a digit where the given text begins. -/
def lackingDigit (rest : List Char) : Token × List Char := (.cutNumber rest.isEmpty, [])

/-- Scan what may follow the digits of a number and their fraction. -/
def finishNumber (n : Numeral) (cs : List Char) : Token × List Char :=
  match cs with
  | 'e' :: cs | 'E' :: cs =>
    match scanExponent cs with
    | (some exponent, rest) => (.number { n with exponent := some exponent }, rest)
    | (none, rest) => lackingDigit rest
  | cs => (.number n, cs)

/-- Scan a number from behind its sign. -/
def scanNumber (negative : Bool) (cs : List Char) : Token × List Char :=
  match scanDigits cs with
  | ([], rest) => lackingDigit rest
  | (0 :: _ :: _, _) => (.cutNumber false, [])
  | (whole, '.' :: cs) =>
    match scanDigits cs with
    | ([], rest) => lackingDigit rest
    | (fraction, rest) => finishNumber { negative, whole, fraction } rest
  | (whole, rest) => finishNumber { negative, whole } rest

/-! ## Words -/

/-- Scan the letters of a word, which stands for the given token. -/
def scanWord (token : Token) : List Char → List Char → Token × List Char
  | [], cs => (token, cs)
  | _ :: _, [] => (.cutWord .unfinished, [])
  | w :: ws, c :: cs => if w = c then scanWord token ws cs else (.cutWord .malformed, [])

/-! ## Tokens -/

/-- Scan the token that begins with a character. -/
def scanToken (c : Char) (rest : List Char) : Token × List Char :=
  if c = '\x7b' then (.beginObject, rest)
  else if c = '\x7d' then (.endObject, rest)
  else if c = '[' then (.beginArray, rest)
  else if c = ']' then (.endArray, rest)
  else if c = ',' then (.comma, rest)
  else if c = ':' then (.colon, rest)
  else if c = '"' then
    let s := scanString rest
    (.string s.pieces s.fault, s.rest)
  else if c = '-' then scanNumber true rest
  else if (digit? c).isSome then scanNumber false (c :: rest)
  else if c = 'n' then scanWord .null "ull".toList rest
  else if c = 't' then scanWord (.bool true) "rue".toList rest
  else if c = 'f' then scanWord (.bool false) "alse".toList rest
  else (.stray, [])

/-- Cut a text of at most so many characters into tokens. -/
def lexFrom : Nat → List Char → List Token
  | 0, _ => []
  | fuel + 1, cs =>
    match cs.dropWhile isSpace with
    | [] => []
    | c :: rest =>
      let (token, rest) := scanToken c rest
      token :: lexFrom fuel rest

/-- The tokens of a text. -/
def lex (cs : List Char) : List Token := lexFrom cs.length cs

end Monitor68.Json
