import Monitor68.Json.Token

/-!
# Passing over a value

A reader that does not know a member passes over its value, whatever the
value is and however deep it nests.  The brackets that are still open are
kept in a list, so passing over a value is one walk along the tokens.

A value that is passed over need only be well formed.  The numbers in it
may have any size and the code units in its strings need not make
characters; but a number that lacks a digit is malformed, also where the
text ends.
-/

namespace Monitor68.Json

/-- A bracket that waits to be closed. -/
inductive Bracket where
  | array
  | object
deriving DecidableEq, Repr

/-- What may come next during the walk. -/
inductive Awaited where
  | value
  /-- A value, or the end of an array that is still empty. -/
  | valueOrEnd
  | key
  /-- A key, or the end of an object that is still empty. -/
  | keyOrEnd
  | colon
  /-- A comma, or the end of the innermost bracket. -/
  | separator
deriving DecidableEq, Repr

/-- What one token makes of the walk: it goes on with these brackets open
and this awaited, or it is over. -/
inductive Walk where
  | goes (brackets : List Bracket) (awaited : Awaited)
  | over
deriving DecidableEq, Repr

def Walk.afterValue : List Bracket → Walk
  | [] => .over
  | brackets => .goes brackets .separator

/-- Walk over a token where a value is awaited. -/
def walkValue (brackets : List Bracket) : Token → Except Fault Walk
  | .beginObject => .ok (.goes (.object :: brackets) .keyOrEnd)
  | .beginArray => .ok (.goes (.array :: brackets) .valueOrEnd)
  | .null | .bool _ | .number _ | .string _ none => .ok (.afterValue brackets)
  | .string _ (some fault) => .error fault
  | .cutWord fault => .error fault
  | _ => .error .malformed

/-- Walk over a token where a key is awaited. -/
def walkKey (brackets : List Bracket) : Token → Except Fault Walk
  | .string _ none => .ok (.goes brackets .colon)
  | .string _ (some fault) => .error fault
  | _ => .error .malformed

/-- Walk over one token. -/
def walk (brackets : List Bracket) (awaited : Awaited) (token : Token) : Except Fault Walk :=
  match awaited, token, brackets with
  | .value, token, _ => walkValue brackets token
  | .valueOrEnd, .endArray, .array :: outer => .ok (.afterValue outer)
  | .valueOrEnd, token, _ => walkValue brackets token
  | .key, token, _ => walkKey brackets token
  | .keyOrEnd, .endObject, .object :: outer => .ok (.afterValue outer)
  | .keyOrEnd, token, _ => walkKey brackets token
  | .colon, .colon, _ => .ok (.goes brackets .value)
  | .separator, .comma, .array :: _ => .ok (.goes brackets .value)
  | .separator, .comma, .object :: _ => .ok (.goes brackets .key)
  | .separator, .endArray, .array :: outer => .ok (.afterValue outer)
  | .separator, .endObject, .object :: outer => .ok (.afterValue outer)
  | _, _, _ => .error .malformed

/-- Walk along tokens until the walk is over.  The answer is the tokens
behind it. -/
def walkAlong (brackets : List Bracket) (awaited : Awaited) :
    List Token → Except Fault (List Token)
  | [] => .error .unfinished
  | token :: rest =>
    match walk brackets awaited token with
    | .error fault => .error fault
    | .ok .over => .ok rest
    | .ok (.goes brackets awaited) => walkAlong brackets awaited rest

/-- Pass over one value. -/
def skipValue (tokens : List Token) : Except Fault (List Token) := walkAlong [] .value tokens

end Monitor68.Json
