import Monitor68.Text.Blank

/-!
# Lines of a byte stream

A line ends at a line feed, and one carriage return before the line feed
belongs to the end.  The bytes after the last line feed are a line of
their own unless there are none.  A line is text only if its bytes are
valid UTF-8, so cutting comes first and decoding is a separate step on
each line: one undecodable line does not spoil its neighbours.
-/

namespace Monitor68.Text

def lineFeed : UInt8 := 0x0A

def carriageReturn : UInt8 := 0x0D

/-- A line that a line feed has ended, without one carriage return at its
end. -/
def dropReturn (line : List UInt8) : List UInt8 :=
  if line.getLast? = some carriageReturn then line.dropLast else line

/-- The ended lines of a stream, and the bytes behind the last line feed. -/
def splitLines (bytes : List UInt8) : List (List UInt8) × List UInt8 :=
  match _h : bytes.dropWhile (· != lineFeed) with
  | [] => ([], bytes)
  | _ :: rest =>
    let (lines, last) := splitLines rest
    (dropReturn (bytes.takeWhile (· != lineFeed)) :: lines, last)
termination_by bytes.length
decreasing_by
  have hle := length_dropWhile_le (· != lineFeed) bytes
  have hlen : (bytes.dropWhile (· != lineFeed)).length = rest.length + 1 := by rw [_h]; rfl
  omega

/-- The text that bytes encode in UTF-8, if they encode one. -/
def decodeUtf8 (bytes : List UInt8) : Option String :=
  String.fromUTF8? ⟨bytes.toArray⟩

/-- The UTF-8 encoding of a text. -/
def encodeUtf8 (text : List Char) : List UInt8 := text.flatMap String.utf8EncodeChar

end Monitor68.Text
