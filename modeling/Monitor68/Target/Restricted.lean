import Monitor68.Target.Engine

/-!
# Restricted engines

An engine under test conditions: chosen operations refuse to work, and the
block operations may be withheld so that blocks go byte by byte.  A
refused operation answers that the engine is not powered and does
nothing.  Blocks that go byte by byte have no operation of their own that
could refuse; they meet the refusals of the single bytes.
-/

namespace Monitor68

/-- The operations of an engine that can be made to refuse. -/
inductive Operation where
  | reset
  | stepOne
  | run
  | readByte
  | writeByte
  | readBlock
  | writeBlock
  | setBreakpoint
  | shutdown
deriving DecidableEq, Repr

/-- An engine of which some operations refuse. -/
structure Restricted (ε : Type) where
  inner : ε
  refused : List Operation := []
  /-- Whether blocks are read and written byte by byte. -/
  bytewise : Bool := false

namespace Restricted

variable {ε : Type} [Engine ε]

/-- Perform an operation unless it is refused. -/
def guarded {α : Type} (r : Restricted ε) (op : Operation) (answer : Except EngineError α) :
    Except EngineError α :=
  if op ∈ r.refused then .error .notPowered else answer

/-- Perform an operation that changes the engine unless it is refused. -/
def change (r : Restricted ε) (op : Operation) (answer : Except EngineError ε) :
    Except EngineError (Restricted ε) :=
  r.guarded op (answer.map fun inner => { r with inner })

def readByte (r : Restricted ε) (address : UInt32) : Except EngineError UInt8 :=
  r.guarded .readByte (Engine.readByte r.inner address)

def writeByte (r : Restricted ε) (address : UInt32) (value : UInt8) :
    Except EngineError (Restricted ε) :=
  r.change .writeByte (Engine.writeByte r.inner address value)

def readBlock (r : Restricted ε) (address : UInt32) (length : Nat) :
    Except EngineError (List UInt8) :=
  if r.bytewise then Engine.readEach r.readByte address length
  else r.guarded .readBlock (Engine.readBlock r.inner address length)

def writeBlock (r : Restricted ε) (address : UInt32) (data : List UInt8) :
    Restricted ε × Except EngineError Unit :=
  if r.bytewise then Engine.writeEach writeByte r address data
  else if .writeBlock ∈ r.refused then (r, .error .notPowered)
  else
    let (inner, outcome) := Engine.writeBlock r.inner address data
    ({ r with inner }, outcome)

instance : Engine (Restricted ε) where
  registers r := Engine.registers r.inner
  powered r := Engine.powered r.inner
  running r := Engine.running r.inner
  reset r entry stack := r.change .reset (Engine.reset r.inner entry stack)
  stepOne r := r.change .stepOne (Engine.stepOne r.inner)
  run r := r.change .run (Engine.run r.inner)
  settle r := { r with inner := Engine.settle r.inner }
  shutdown r := r.change .shutdown (Engine.shutdown r.inner)
  readByte := readByte
  writeByte := writeByte
  readBlock := readBlock
  writeBlock := writeBlock
  setBreakpoint r slot address mask :=
    r.change .setBreakpoint (Engine.setBreakpoint r.inner slot address mask)
  clearBreakpoints r := { r with inner := Engine.clearBreakpoints r.inner }
  raiseInterrupt r line := { r with inner := Engine.raiseInterrupt r.inner line }

end Restricted

end Monitor68
