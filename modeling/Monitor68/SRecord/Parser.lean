import Monitor68.SRecord.Basic
import Monitor68.Bytes.BigEndian
import Monitor68.Text.Line

/-!
# Reading one line of a program image

White space around the line is ignored.  A line that does not begin with
`S` and a kind digit that matters is no record and is skipped without
complaint.  Every other line must hold nothing but complete bytes in
hexadecimal, and enough of them for its address field and checksum.  The
count and the checksum are read and not verified.
-/

namespace Monitor68.SRecord

open Monitor68

/-- The record that the bytes of a line of a given kind make.  The first
byte is the count, the address follows, and the last byte is the checksum. -/
def Record.ofBytes (kind : Kind) (bytes : List UInt8) : Except FormatError Record :=
  if bytes.length < kind.minimumSize then .error (.truncated kind bytes.length)
  else
    let field := (bytes.drop 1).take kind.width.size
    let address := UInt32.ofNat (Bytes.BigEndian.value field)
    match kind with
    | .data w => .ok (.data address (bytes.drop (1 + w.size)).dropLast)
    | .start _ => .ok (.start address)

/-- Read the digits that follow a kind digit. -/
def Record.parseBody (kind : Kind) (body : List Char) : Except FormatError Record :=
  match Bytes.Hex.decode (Text.encodeUtf8 body) with
  | .error fault => .error (.invalidHex fault)
  | .ok bytes => Record.ofBytes kind bytes

/-- Read one line.  The answer is `none` for a line that is no record. -/
def Record.parse (line : String) : Except FormatError (Option Record) :=
  match Text.trim line.toList with
  | 'S' :: digit :: body =>
    match Kind.ofDigit? digit with
    | none => .ok none
    | some kind => (Record.parseBody kind body).map some
  | _ => .ok none

end Monitor68.SRecord
