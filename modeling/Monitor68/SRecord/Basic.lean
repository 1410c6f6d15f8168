import Monitor68.Bytes.Hex

/-!
# S-records

A program image is a text of S-records.  Each record is one line: the
letter `S`, one digit for the kind, and hexadecimal digits for a count, an
address, a payload and a checksum.  The digit fixes both what the record
says and how wide its address is: kinds 1, 2 and 3 place data at an
address of two, three or four bytes, and kinds 9, 8 and 7 name the start
address in the same widths.  All other kinds (headers and counts) carry
nothing for the target.
-/

namespace Monitor68.SRecord

open Monitor68

/-- The width of an address field. -/
inductive Width where
  | two
  | three
  | four
deriving DecidableEq, Repr

/-- The number of bytes of an address field. -/
def Width.size : Width → Nat
  | .two => 2
  | .three => 3
  | .four => 4

/-- The smallest field that holds an address. -/
def Width.forAddress (address : UInt32) : Width :=
  if address ≤ 0xFFFF then .two
  else if address ≤ 0xFFFFFF then .three
  else .four

/-- What a record line is about, and in which width. -/
inductive Kind where
  | data (width : Width)
  | start (width : Width)
deriving DecidableEq, Repr

/-- The width of the address field of a kind. -/
def Kind.width : Kind → Width
  | .data w => w
  | .start w => w

/-- The digit that stands for a kind. -/
def Kind.digit : Kind → Char
  | .data .two => '1'
  | .data .three => '2'
  | .data .four => '3'
  | .start .four => '7'
  | .start .three => '8'
  | .start .two => '9'

/-- The kind that a digit stands for, if records of that kind matter to the
target. -/
def Kind.ofDigit? : Char → Option Kind
  | '1' => some (.data .two)
  | '2' => some (.data .three)
  | '3' => some (.data .four)
  | '7' => some (.start .four)
  | '8' => some (.start .three)
  | '9' => some (.start .two)
  | _ => none

/-- The fewest bytes a record of a kind consists of: its count, its address
and its checksum. -/
def Kind.minimumSize (kind : Kind) : Nat := 1 + kind.width.size + 1

/-- What one record tells the target. -/
inductive Record where
  | data (address : UInt32) (payload : List UInt8)
  /-- Execution starts at the address. -/
  | start (address : UInt32)
deriving DecidableEq, Repr

/-- Why a line that claims to be a record is none, or why no record can be
written. -/
inductive FormatError where
  | invalidHex (fault : Bytes.Hex.Fault)
  /-- The record ends before its address field and checksum do. -/
  | truncated (kind : Kind) (got : Nat)
  | recordTooLong (payloadSize : Nat)
deriving DecidableEq, Repr

def FormatError.message : FormatError → String
  | .invalidHex fault => "invalid hex field: " ++ fault.message
  | .truncated kind got =>
    let digit := kind.digit.toString
    let needed := Text.Numeral.decimal kind.minimumSize
    let found := Text.Numeral.decimal got
    s!"record too short for S{digit} (need {needed} bytes, got {found})"
  | .recordTooLong size =>
    let size := Text.Numeral.decimal size
    s!"payload of {size} bytes does not fit in one record"

end Monitor68.SRecord
