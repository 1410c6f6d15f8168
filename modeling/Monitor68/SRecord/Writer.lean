import Monitor68.SRecord.Basic
import Monitor68.Bytes.BigEndian

/-!
# Writing records

A record is written in the narrowest kind that holds its address.  The
count byte states how many bytes follow it, and the checksum byte is the
complement of the sum of all bytes before it, so that all bytes of a
record add up to `0xFF`.  A count must fit in one byte, which bounds the
payload.
-/

namespace Monitor68.SRecord

open Monitor68

/-- The byte that makes the bytes of a record add up to `0xFF`. -/
def checksum (bytes : List UInt8) : UInt8 := 0xFF - bytes.foldl (· + ·) 0

/-- The count that a record of a given payload size states. -/
def countOf (width : Width) (payloadSize : Nat) : Nat := width.size + payloadSize + 1

/-- The bytes of a record in front of its checksum. -/
def Record.front (kind : Kind) (address : UInt32) (payload : List UInt8) : List UInt8 :=
  UInt8.ofNat (countOf kind.width payload.length) ::
    (Bytes.BigEndian.bytes kind.width.size address.toNat ++ payload)

/-- The line of a record, whatever its count. -/
def Record.line (kind : Kind) (address : UInt32) (payload : List UInt8) : String :=
  let front := Record.front kind address payload
  String.ofList ('S' :: kind.digit :: Bytes.Hex.encode (front ++ [checksum front]))

/-- Write a record of a kind.  Its count must fit in one byte. -/
def Record.write (kind : Kind) (address : UInt32) (payload : List UInt8) :
    Except FormatError String :=
  if countOf kind.width payload.length < 256 then .ok (Record.line kind address payload)
  else .error (.recordTooLong payload.length)

def Record.writeData (address : UInt32) (payload : List UInt8) : Except FormatError String :=
  Record.write (.data (Width.forAddress address)) address payload

/-- Write a start record.  Its count is that of an address alone and always
fits. -/
def Record.writeStart (address : UInt32) : String :=
  (Record.write (.start (Width.forAddress address)) address []).toOption.getD ""

end Monitor68.SRecord
