import Monitor68.Json.Range
import Monitor68.Json.Skip

/-!
# Reading records

A record of settings is written as an object whose members name some of
its fields, or as an array of its first fields in order.  Fields that are
not written keep the values they have.  In an object the order does not
matter, members of other names are passed over, and no field may be named
twice; in an array there may be no more elements than fields.

A reader takes tokens from the front of a list and answers with what it
read and the tokens behind it.  The first fault in reading order is the
answer if there is one.
-/

namespace Monitor68.Json

/-- What a reader answers. -/
abbrev Read (α : Type) := Except Fault (α × List Token)

/-! ## Simple values -/

/-- The characters that the pieces of a string make, with the fault that
may end it.  A code unit is a character, or the first of a surrogate pair
that the next piece completes. -/
def decodePieces (fault : Option Fault) : List Piece → Except Fault (List Char)
  | [] =>
    match fault with
    | some fault => .error fault
    | none => .ok []
  | .character c :: rest => (decodePieces fault rest).map (c :: ·)
  | .unit code :: rest =>
    if 0xDC00 ≤ code ∧ code ≤ 0xDFFF then .error .malformed
    else if 0xD800 ≤ code ∧ code ≤ 0xDBFF then
      match rest with
      | .unit low :: rest =>
        if 0xDC00 ≤ low ∧ low ≤ 0xDFFF then
          let code := 0x10000 + (code - 0xD800) * 0x400 + (low - 0xDC00)
          (decodePieces fault rest).map (Char.ofNat code :: ·)
        else .error .malformed
      | .character _ :: _ => .error .malformed
      | [] => .error (fault.getD .malformed)
    else (decodePieces fault rest).map (Char.ofNat code :: ·)

/-- The fault of a token that stands where another kind of value belongs:
its own if it has one. -/
def unsuitable : Token → Fault
  | .string pieces fault =>
    match decodePieces fault pieces with
    | .error fault => fault
    | .ok _ => .unsuitable
  | .number n => if n.isOutOfRange then .malformed else .unsuitable
  | .null | .bool _ | .beginArray | .beginObject => .unsuitable
  | .cutNumber atEnd => if atEnd then .unfinished else .malformed
  | .cutWord fault => fault
  | _ => .malformed

/-- Read a whole number below a bound. -/
def readBelow (bound : Nat) : List Token → Read Nat
  | [] => .error .unfinished
  | token :: rest =>
    match token with
    | .number n =>
      match n.whole? with
      | some value => if value < bound then .ok (value, rest) else .error .unsuitable
      | none => .error (unsuitable token)
    | _ => .error (unsuitable token)

/-- Read a truth value. -/
def readBool : List Token → Read Bool
  | [] => .error .unfinished
  | .bool value :: rest => .ok (value, rest)
  | token :: _ => .error (unsuitable token)

/-! ## Records -/

/-- A field of records of type `σ`: its name, and how its value is read into
a record. -/
structure RecordField (σ : Type) where
  name : String
  read : σ → List Token → Read σ

/-- A field whose value is read by a reader and stored by a function. -/
def RecordField.of {σ α : Type} (name : String) (read : List Token → Read α)
    (store : σ → α → σ) : RecordField σ where
  name := name
  read record tokens := (read tokens).map fun (value, rest) => (store record value, rest)

variable {σ : Type}

def readColon : List Token → Except Fault (List Token)
  | [] => .error .unfinished
  | .colon :: rest => .ok rest
  | _ :: _ => .error .malformed

/-- Read the key of a member. -/
def readKey : List Token → Read (List Char)
  | [] => .error .unfinished
  | .string pieces fault :: rest => (decodePieces fault pieces).map (·, rest)
  | _ :: _ => .error .malformed

/-- Read the value of a member into a record.  Of the fields named before,
`seen` holds the names, and the field named here is added to them. -/
def readMember (fields : List (RecordField σ)) (seen : List String) (record : σ)
    (key : List Char) (tokens : List Token) : Read (σ × List String) :=
  match fields.find? fun f => f.name.toList == key with
  | none =>
    match readColon tokens with
    | .error fault => .error fault
    | .ok tokens => (skipValue tokens).map fun rest => ((record, seen), rest)
  | some field =>
    if field.name ∈ seen then .error .unsuitable
    else
      match readColon tokens with
      | .error fault => .error fault
      | .ok tokens =>
        (field.read record tokens).map fun (record, rest) => ((record, field.name :: seen), rest)

/-- Read at most `fuel` members, the first of which begins here, up to the
end of the object. -/
def readMembers (fields : List (RecordField σ)) :
    (fuel : Nat) → (seen : List String) → σ → List Token → Read σ
  | 0, _, _, _ => .error .unfinished
  | fuel + 1, seen, record, tokens =>
    match readKey tokens with
    | .error fault => .error fault
    | .ok (key, tokens) =>
      match readMember fields seen record key tokens with
      | .error fault => .error fault
      | .ok ((record, seen), tokens) =>
        match tokens with
        | [] => .error .unfinished
        | .endObject :: rest => .ok (record, rest)
        | .comma :: rest => readMembers fields fuel seen record rest
        | _ :: _ => .error .malformed

/-- Read an object from behind its opening bracket.  A member takes more
than one token, so there are fewer members than tokens. -/
def readObject (fields : List (RecordField σ)) (record : σ) (tokens : List Token) : Read σ :=
  match tokens with
  | .endObject :: rest => .ok (record, rest)
  | tokens => readMembers fields (tokens.length + 1) [] record tokens

def readArrayEnd : List Token → Except Fault (List Token)
  | [] => .error .unfinished
  | .endArray :: rest => .ok rest
  | _ :: _ => .error .malformed

/-- Read the elements of an array, the first of which begins here, into the
given fields. -/
def readElements : List (RecordField σ) → σ → List Token → Read σ
  | [], record, tokens => (readArrayEnd tokens).map (record, ·)
  | field :: fields, record, tokens =>
    match field.read record tokens with
    | .error fault => .error fault
    | .ok (record, tokens) =>
      match fields, tokens with
      | _, [] => .error .unfinished
      | _, .endArray :: rest => .ok (record, rest)
      | _ :: _, .comma :: rest => readElements fields record rest
      | _, _ :: _ => .error .malformed

/-- Read an array from behind its opening bracket. -/
def readArray (fields : List (RecordField σ)) (record : σ) (tokens : List Token) : Read σ :=
  match tokens with
  | .endArray :: rest => .ok (record, rest)
  | tokens => readElements fields record tokens

/-- Read a record in either form onto the values that its fields have. -/
def readRecord (fields : List (RecordField σ)) (record : σ) : List Token → Read σ
  | [] => .error .unfinished
  | .beginObject :: rest => readObject fields record rest
  | .beginArray :: rest => readArray fields record rest
  | token :: _ => .error (unsuitable token)

/-- Read a text that holds one record and nothing else. -/
def readWhole (fields : List (RecordField σ)) (record : σ) (tokens : List Token) :
    Except Fault σ :=
  match readRecord fields record tokens with
  | .error fault => .error fault
  | .ok (record, []) => .ok record
  | .ok (_, _ :: _) => .error .malformed

end Monitor68.Json
