import Monitor68.Text.Numeral

/-!
# Quoted characters

A message that complains of one byte shows the byte as the character with
that code, between single quotes.  Characters that would not show are
escaped: the usual short escapes, and a braced hexadecimal code for the
other control characters, the no-break space and the soft hyphen.
-/

namespace Monitor68.Text.Quoted

/-- The hexadecimal code of a byte in lower case, without leading zeros. -/
def bareCode (byte : UInt8) : List Char := Nat.toDigits 16 byte.toNat

/-- The codes that are shown as a braced code: the control characters, the
no-break space and the soft hyphen. -/
def isHidden (byte : UInt8) : Bool :=
  byte < 0x20 || (0x7F ≤ byte && byte ≤ 0xA0) || byte == 0xAD

/-- The character between the quotes, escaped where it would not show. -/
def body (byte : UInt8) : List Char :=
  let c := Char.ofNat byte.toNat
  if c = '\x00' then ['\\', '0']
  else if c = '\t' then ['\\', 't']
  else if c = '\r' then ['\\', 'r']
  else if c = '\n' then ['\\', 'n']
  else if c = '\'' then ['\\', '\'']
  else if c = '\\' then ['\\', '\\']
  else if isHidden byte then ['\\', 'u', '\x7b'] ++ bareCode byte ++ ['\x7d']
  else [c]

/-- The byte as a quoted character. -/
def quote (byte : UInt8) : String :=
  String.ofList ('\'' :: body byte ++ ['\''])

end Monitor68.Text.Quoted
