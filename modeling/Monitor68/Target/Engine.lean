import Monitor68.Target.Registers
import Monitor68.Target.AccessMask
import Monitor68.Text.Numeral

/-!
# Execution engines

An engine owns the target: its memory, its registers, its breakpoint slots
and its power.  The debugger talks to it only through the operations of
the class `Engine`, so everything above this module holds for any engine.

An operation that fails leaves the engine as it was, which its type says:
it returns either an error or a new engine.  Only the writing of a block
may fail halfway, and it returns the engine along with the outcome.  An
engine that runs does so on a thread of its own; `settle` is the engine
after that thread has come to rest.

An engine that can only read and write single bytes gets its block
operations from `readEach` and `writeEach`.
-/

namespace Monitor68

/-- What an engine complains of. -/
inductive EngineError where
  | invalidAddress (address : UInt32)
  | notPowered
  | alreadyShutdown
  | invalidBreakpointSlot (slot : Nat)
deriving DecidableEq, Repr

def EngineError.message : EngineError → String
  | .invalidAddress address =>
    let shown := Text.Numeral.addressText address
    s!"address 0x{shown} is outside target memory"
  | .notPowered => "engine is not powered"
  | .alreadyShutdown => "engine is already shut down"
  | .invalidBreakpointSlot slot =>
    let shown := Text.Numeral.decimal slot
    s!"breakpoint slot {shown} is out of range"

/-- An execution engine with states of type `ε`. -/
class Engine (ε : Type) where
  /-- The register file. -/
  registers : ε → Registers
  /-- Whether the engine is powered and able to execute. -/
  powered : ε → Bool
  /-- Whether the engine executes continuously at the moment. -/
  running : ε → Bool
  /-- Power the engine up and put it at an entry point with a stack. -/
  reset : ε → (entry stack : UInt32) → Except EngineError ε
  /-- Execute exactly one instruction. -/
  stepOne : ε → Except EngineError ε
  /-- Begin to execute continuously. -/
  run : ε → Except EngineError ε
  /-- The engine once its own thread has come to rest. -/
  settle : ε → ε
  /-- Stop and power the engine down. -/
  shutdown : ε → Except EngineError ε
  readByte : ε → UInt32 → Except EngineError UInt8
  writeByte : ε → UInt32 → UInt8 → Except EngineError ε
  /-- Read consecutive bytes in one view of memory. -/
  readBlock : ε → UInt32 → Nat → Except EngineError (List UInt8)
  /-- Write consecutive bytes.  On failure the engine returned may hold some
  of them. -/
  writeBlock : ε → UInt32 → List UInt8 → ε × Except EngineError Unit
  /-- Occupy a breakpoint slot. -/
  setBreakpoint : ε → (slot : Nat) → UInt32 → AccessMask → Except EngineError ε
  /-- Empty all breakpoint slots. -/
  clearBreakpoints : ε → ε
  /-- Assert an interrupt line towards the target. -/
  raiseInterrupt : ε → UInt8 → ε

namespace Engine

/-! ## Blocks byte by byte -/

/-- The address `offset` bytes above another.  Offsets are 32-bit words,
and there is no address past the last one. -/
def offsetAddress? (address : UInt32) (offset : Nat) : Option UInt32 :=
  let target := address.toNat + offset % UInt32.size
  if target < UInt32.size then some (UInt32.ofNat target) else none

/-- Read `length` more bytes, the first of them at `offset`, behind the
bytes `seen` in reverse. -/
def readEachFrom (readByte : UInt32 → Except EngineError UInt8) (address : UInt32) :
    (offset length : Nat) → (seen : List UInt8) → Except EngineError (List UInt8)
  | _, 0, seen => .ok seen.reverse
  | offset, length + 1, seen =>
    match offsetAddress? address offset with
    | none => .error (.invalidAddress address)
    | some target =>
      match readByte target with
      | .error e => .error e
      | .ok b => readEachFrom readByte address (offset + 1) length (b :: seen)

/-- Read a block one byte at a time. -/
def readEach (readByte : UInt32 → Except EngineError UInt8) (address : UInt32)
    (length : Nat) : Except EngineError (List UInt8) :=
  readEachFrom readByte address 0 length []

/-- Write bytes one at a time, the first of them at `offset`. -/
def writeEachFrom {ε : Type} (writeByte : ε → UInt32 → UInt8 → Except EngineError ε)
    (address : UInt32) : ε → (offset : Nat) → List UInt8 → ε × Except EngineError Unit
  | e, _, [] => (e, .ok ())
  | e, offset, b :: bs =>
    match offsetAddress? address offset with
    | none => (e, .error (.invalidAddress address))
    | some target =>
      match writeByte e target b with
      | .error error => (e, .error error)
      | .ok e' => writeEachFrom writeByte address e' (offset + 1) bs

/-- Write a block one byte at a time.  The bytes before a failing one stay
written. -/
def writeEach {ε : Type} (writeByte : ε → UInt32 → UInt8 → Except EngineError ε)
    (e : ε) (address : UInt32) (data : List UInt8) : ε × Except EngineError Unit :=
  writeEachFrom writeByte address e 0 data

end Engine

end Monitor68
