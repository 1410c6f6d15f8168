/-!
# The register file

The target is a 68000: eight data registers, eight address registers, a
program counter and a status register.  The last address register is the
active stack pointer.  The status register is shown as a string of sixteen
flags, most significant bit first, with a dash for every clear bit.
-/

namespace Monitor68

/-- A snapshot of the register file. -/
structure Registers where
  /-- The data registers. -/
  d : Vector UInt32 8 := .replicate 8 0
  /-- The address registers; the last one is the active stack pointer. -/
  a : Vector UInt32 8 := .replicate 8 0
  pc : UInt32 := 0
  sr : UInt16 := 0
deriving DecidableEq, Repr

namespace Registers

/-- The active stack pointer. -/
def sp (r : Registers) : UInt32 := r.a[7]

/-- The status register after a reset: supervisor mode, all interrupts
masked. -/
def resetStatus : UInt16 := 0x2700

/-- The register file after a reset: everything is zero but the program
counter, the stack pointer and the status register. -/
def atEntry (entry stack : UInt32) : Registers :=
  { a := (Vector.replicate 8 0).set 7 stack, pc := entry, sr := resetStatus }

/-- The names of the status bits, most significant first. -/
def flagNames : List Char := "T?S??210???XNZVC".toList

/-- The status register as flags. -/
def flags (r : Registers) : String :=
  String.ofList <|
    flagNames.zipIdx.map fun (name, i) => if r.sr.toNat.testBit (15 - i) then name else '-'

end Registers

end Monitor68
