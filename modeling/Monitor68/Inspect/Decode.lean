import Monitor68.Bytes.BigEndian
import Monitor68.Inspect.Encoding
import Monitor68.Target.Engine

/-!
# Decoding target memory

A number is big-endian and fetched with one block read.  A string is
fetched byte by byte until a zero byte and gives up after a fixed length.
Whatever byte cannot be read, the complaint is about the address at which
the value begins.
-/

namespace Monitor68

/-- Why a value cannot be shown. -/
inductive DecodeError where
  /-- The value lies, at least in part, outside target memory. -/
  | invalidAddress (address : UInt32)
  | notAscii (byte : UInt8)
  | unterminated
deriving DecidableEq, Repr

/-- The text shown in place of the value. -/
def DecodeError.message : DecodeError → String
  | .invalidAddress _ => "invalid address"
  | .notAscii byte =>
    let shown := Text.Numeral.byteText byte
    s!"not an ASCII character (0x{shown})"
  | .unterminated => "unterminated string"

namespace Form

/-- The value of a number of `width` bytes in two's complement. -/
def twosComplement (width n : Nat) : Int :=
  if n < Nat.pow 2 (8 * width - 1) then n else Int.subNatNat n (Nat.pow 2 (8 * width))

/-- A number of a given width as text. -/
def text (form : Form) (width n : Nat) : String :=
  match form with
  | unsigned => Text.Numeral.decimal n
  | signed => Text.Numeral.signedDecimal (twosComplement width n)
  | hex => Text.Numeral.hex (2 * width) n

end Form

namespace Decode

/-- Whether a byte is a character of ASCII. -/
def isAscii (byte : UInt8) : Bool := byte < 0x80

/-- The greatest length of a string. -/
def longestString : Nat := 4096

/-- Read at most `left` more bytes of a string that begins at `address`.
The byte at an offset is what `byteAt` says, and `seen` holds the
characters before it in reverse. -/
def scanString (byteAt : Nat → Option UInt8) (address : UInt32) :
    (left offset : Nat) → (seen : List Char) → Except DecodeError String
  | 0, _, _ => .error .unterminated
  | left + 1, offset, seen =>
    match byteAt offset with
    | none => .error (.invalidAddress address)
    | some b =>
      if b = 0 then .ok (String.ofList seen.reverse)
      else if isAscii b then
        scanString byteAt address left (offset + 1) (Char.ofNat b.toNat :: seen)
      else .error (.notAscii b)

variable {ε : Type} [Engine ε]

/-- The byte at an offset above an address, if there is one and it can be
read. -/
def byteAt (e : ε) (address : UInt32) (offset : Nat) : Option UInt8 :=
  let target := address.toNat + offset
  if target < UInt32.size then (Engine.readByte e (UInt32.ofNat target)).toOption else none

def string (e : ε) (address : UInt32) : Except DecodeError String :=
  scanString (byteAt e address) address longestString 0 []

def character (e : ε) (address : UInt32) : Except DecodeError String :=
  match Engine.readByte e address with
  | .error _ => .error (.invalidAddress address)
  | .ok b => if isAscii b then .ok (Char.ofNat b.toNat).toString else .error (.notAscii b)

def number (e : ε) (address : UInt32) (size : Size) (form : Form) :
    Except DecodeError String :=
  match Engine.readBlock e address size.width with
  | .error _ => .error (.invalidAddress address)
  | .ok bytes => .ok (form.text size.width (Bytes.BigEndian.value bytes))

def value (e : ε) (address : UInt32) : Encoding → Except DecodeError String
  | .number size form => number e address size form
  | .character => character e address
  | .string => string e address

/-- The value at an address as it is shown: its text, or the text of the
error. -/
def shown (e : ε) (address : UInt32) (encoding : Encoding) : String :=
  match value e address encoding with
  | .ok text => text
  | .error error => error.message

end Decode

end Monitor68
