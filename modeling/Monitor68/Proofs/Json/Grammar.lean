import Monitor68.Json.Token
import Monitor68.Text.Numeral

/-!
# The grammar of structured text

What a JSON text is, said without a scanner.  `Derives` has one rule for
each way to write a value, an element, a member and the lists of these, so
a text of any nesting depth is a derivation and what all texts have in
common is proved by induction on it.

A string is made of letters.  Any letters make a string; but only some
strings are texts, since a letter may be half of a surrogate pair.
`Spells` is the relation between the letters and the text.
-/

namespace Monitor68.Json

open Monitor68.Text

/-- White space: blanks, tabs, line feeds and carriage returns. -/
def Gap (cs : List Char) : Prop := ∀ c ∈ cs, c ∈ [' ', '\t', '\n', '\r']

instance : DecidablePred Gap := List.decidableBAll _

theorem Gap.nil : Gap [] := fun _ h => nomatch h

/-! ## Strings -/

/-- The characters behind a backslash, and what they stand for. -/
def shortEscapes : List (Char × Char) :=
  [('"', '"'), ('\\', '\\'), ('/', '/'), ('b', '\x08'), ('f', '\x0c'), ('n', '\n'), ('r', '\r'),
    ('t', '\t')]

/-- A letter of a string, and the piece that it is. -/
inductive Letter : List Char → Piece → Prop where
  | plain {c : Char} (printable : 0x20 ≤ c.toNat) (not_quote : c ≠ '"')
      (not_backslash : c ≠ '\\') : Letter [c] (.character c)
  | short {e c : Char} (mem : (e, c) ∈ shortEscapes) : Letter ['\\', e] (.character c)
  /-- Four hexadecimal digits of either case. -/
  | unit {digits : List Char} {code : Nat} (code_lt : code < 0x10000)
      (upper_eq : digits.map Char.toUpper = Numeral.hexDigits 4 code) :
      Letter ('\\' :: 'u' :: digits) (.unit code)

/-- What stands between the quotes of a string. -/
inductive Letters : List Char → List Piece → Prop where
  | nil : Letters [] []
  | cons {cs ds : List Char} {piece : Piece} {pieces : List Piece} (head : Letter cs piece)
      (tail : Letters ds pieces) : Letters (cs ++ ds) (piece :: pieces)

/-- The 16-bit code units of a character: one, or the two of a surrogate
pair. -/
def codeUnits (c : Char) : List Nat :=
  if c.toNat < 0x10000 then [c.toNat]
  else [0xD800 + (c.toNat - 0x10000) / 0x400, 0xDC00 + (c.toNat - 0x10000) % 0x400]

/-- The text that pieces make: each character is a piece of its own or is
given by its code units. -/
inductive Denotes : List Piece → List Char → Prop where
  | nil : Denotes [] []
  | character {pieces : List Piece} {cs : List Char} (c : Char) (tail : Denotes pieces cs) :
      Denotes (.character c :: pieces) (c :: cs)
  | units {pieces : List Piece} {cs : List Char} (c : Char) (tail : Denotes pieces cs) :
      Denotes ((codeUnits c).map .unit ++ pieces) (c :: cs)

/-- The letters spell the text. -/
def Spells (letters text : List Char) : Prop :=
  ∃ pieces, Letters letters pieces ∧ Denotes pieces text

/-- A text without quotes, backslashes and control characters. -/
def Plain (cs : List Char) : Prop := ∀ c ∈ cs, 0x20 ≤ c.toNat ∧ c ≠ '"' ∧ c ≠ '\\'

instance : DecidablePred Plain := List.decidableBAll _

/-- A plain text spells itself. -/
theorem Plain.spells {cs : List Char} (h : Plain cs) : Spells cs cs := by
  induction cs with
  | nil => exact ⟨[], .nil, .nil⟩
  | cons c cs ih =>
    rw [Plain, List.forall_mem_cons] at h
    obtain ⟨⟨hprintable, hquote, hbackslash⟩, hcs⟩ := h
    obtain ⟨pieces, hletters, hdenotes⟩ := ih hcs
    exact ⟨_, .cons (.plain hprintable hquote hbackslash) hletters, .character c hdenotes⟩

/-- A character in the 16-bit range is spelled by its code. -/
theorem spells_unit {c : Char} {digits : List Char} (hc : c.toNat < 0x10000)
    (h : digits.map Char.toUpper = Numeral.hexDigits 4 c.toNat) :
    Spells ('\\' :: 'u' :: digits) [c] := by
  have hunits : (codeUnits c).map Piece.unit = [.unit c.toNat] := by
    rw [codeUnits, if_pos hc, List.map_singleton]
  have hletters := Letters.cons (.unit hc h) .nil
  have hdenotes := Denotes.units c .nil
  rw [List.append_nil] at hletters hdenotes
  exact ⟨_, hletters, hunits ▸ hdenotes⟩

theorem Letters.append {cs ds : List Char} {front back : List Piece} (hcs : Letters cs front)
    (hds : Letters ds back) : Letters (cs ++ ds) (front ++ back) := by
  induction hcs with
  | nil => exact hds
  | cons head _ ih =>
    rw [List.append_assoc]
    exact .cons head ih

theorem Denotes.append {front back : List Piece} {cs ds : List Char} (hcs : Denotes front cs)
    (hds : Denotes back ds) : Denotes (front ++ back) (cs ++ ds) := by
  induction hcs with
  | nil => exact hds
  | character c _ ih => exact .character c ih
  | units c _ ih =>
    rw [List.append_assoc]
    exact .units c ih

theorem Spells.append {cs ds front back : List Char} (hcs : Spells cs front)
    (hds : Spells ds back) : Spells (cs ++ ds) (front ++ back) := by
  obtain ⟨pieces, hletters, hdenotes⟩ := hcs
  obtain ⟨others, hletters', hdenotes'⟩ := hds
  exact ⟨_, hletters.append hletters', hdenotes.append hdenotes'⟩

/-! ## Numbers -/

/-- One digit or more. -/
structure Digits (cs : List Char) : Prop where
  ne_nil : cs ≠ []
  isDigit : ∀ c ∈ cs, c.isDigit

instance : DecidablePred Digits := fun cs =>
  decidable_of_iff (cs ≠ [] ∧ cs.all Char.isDigit = true)
    ⟨fun h => ⟨h.1, List.all_eq_true.1 h.2⟩, fun h => ⟨h.ne_nil, List.all_eq_true.2 h.isDigit⟩⟩

/-- The digits of a whole number have no superfluous zeros in front. -/
structure Whole (cs : List Char) : Prop extends Digits cs where
  no_zero : cs.head? = some '0' → cs = ['0']

inductive Fraction : List Char → Prop where
  | none : Fraction []
  | some {digits : List Char} (isDigits : Digits digits) : Fraction ('.' :: digits)

inductive Exponent : List Char → Prop where
  | none : Exponent []
  | some {e : Char} {sign digits : List Char} (letter : e ∈ ['e', 'E'])
      (sign_mem : sign ∈ [[], ['+'], ['-']]) (isDigits : Digits digits) :
      Exponent (e :: (sign ++ digits))

inductive Number : List Char → Prop where
  | mk {sign whole fraction exponent : List Char} (sign_mem : sign ∈ [[], ['-']])
      (isWhole : Whole whole) (isFraction : Fraction fraction) (isExponent : Exponent exponent) :
      Number (sign ++ (whole ++ (fraction ++ exponent)))

/-! ## Values -/

/-- What a part of a text is. -/
inductive Phrase where
  | value
  | element
  | elements
  | member
  | members
deriving DecidableEq, Repr

/-- The texts of a kind of phrase. -/
inductive Derives : Phrase → List Char → Prop where
  | word {cs : List Char} (mem : cs ∈ ["null".toList, "true".toList, "false".toList]) :
      Derives .value cs
  | number {cs : List Char} (isNumber : Number cs) : Derives .value cs
  | string {cs : List Char} {pieces : List Piece} (letters : Letters cs pieces) :
      Derives .value ('"' :: (cs ++ ['"']))
  | emptyArray {gap : List Char} (isGap : Gap gap) : Derives .value ('[' :: (gap ++ [']']))
  | array {cs : List Char} (elements : Derives .elements cs) :
      Derives .value ('[' :: (cs ++ [']']))
  | emptyObject {gap : List Char} (isGap : Gap gap) :
      Derives .value ('\x7b' :: (gap ++ ['\x7d']))
  | object {cs : List Char} (members : Derives .members cs) :
      Derives .value ('\x7b' :: (cs ++ ['\x7d']))
  | element {front cs back : List Char} (isGap : Gap front) (value : Derives .value cs)
      (isGap' : Gap back) : Derives .element (front ++ (cs ++ back))
  | lastElement {cs : List Char} (element : Derives .element cs) : Derives .elements cs
  | nextElement {cs ds : List Char} (element : Derives .element cs)
      (elements : Derives .elements ds) : Derives .elements (cs ++ ',' :: ds)
  | member {front cs back ds : List Char} {pieces : List Piece} (isGap : Gap front)
      (letters : Letters cs pieces) (isGap' : Gap back) (element : Derives .element ds) :
      Derives .member (front ++ '"' :: (cs ++ '"' :: (back ++ ':' :: ds)))
  | lastMember {cs : List Char} (member : Derives .member cs) : Derives .members cs
  | nextMember {cs ds : List Char} (member : Derives .member cs) (members : Derives .members ds) :
      Derives .members (cs ++ ',' :: ds)

end Monitor68.Json
