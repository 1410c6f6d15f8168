import Monitor68.Target.Breakpoint
import Monitor68.Target.Memory

/-!
# The simulator

The simulator is an engine with flat memory and no instruction set: to
execute an instruction is to move the program counter on by one word of
two bytes.  It has sixteen breakpoint slots, remembers the interrupts
raised, and counts the instructions executed since it was made.

Continuous execution repeats single steps until a step fails or the
program counter comes upon a breakpoint for supervisor program fetches.
There are 2^31 program counters of one parity, so a run that has not
stopped after that many steps comes round again and never stops;
`runFor` is given just that many.
-/

namespace Monitor68

/-- What a breakpoint slot holds. -/
structure Stop where
  address : UInt32
  mask : AccessMask
deriving DecidableEq, Repr

/-- The state of the simulator. -/
structure Simulator where
  memory : Memory
  registers : Registers := {}
  slots : Vector (Option Stop) 16 := .replicate 16 none
  /-- The interrupt lines raised and not yet taken, oldest first. -/
  interrupts : List UInt8 := []
  powered : Bool := false
  running : Bool := false
  /-- The instructions executed since the simulator was made.  Where they are
  counted in a word of 64 bits the count does not wrap either: with an
  instruction each nanosecond that would take more than five hundred years. -/
  steps : Nat := 0

namespace Simulator

/-- A simulator that was never powered, with memory full of zeros. -/
def blank (size : Nat) : Simulator := { memory := .blank size }

/-- The memory of a simulator of which nothing else is asked. -/
def defaultSize : Nat := 0x70000

/-! ## Execution -/

def stepOne (s : Simulator) : Except EngineError Simulator :=
  if s.powered then
    let next := s.registers.pc + 2
    if next.toNat < s.memory.size then
      .ok { s with registers := { s.registers with pc := next }, steps := s.steps + 1 }
    else .error (.invalidAddress next)
  else .error .notPowered

/-- Whether a breakpoint for supervisor program fetches is set at an
address. -/
def hitsBreakpoint (s : Simulator) (address : UInt32) : Bool :=
  s.slots.any fun
    | some stop => stop.address == address && stop.mask.contains .supervisorProgram
    | none => false

/-- One turn of continuous execution: one instruction, after which a failure
or a breakpoint ends it. -/
def turn (s : Simulator) : Simulator :=
  if s.running then
    match s.stepOne with
    | .error _ => { s with running := false }
    | .ok t => if t.hitsBreakpoint t.registers.pc then { t with running := false } else t
  else s

/-- Execute continuously for at most so many turns. -/
def runFor : Nat → Simulator → Simulator
  | 0, s => s
  | fuel + 1, s => if s.running then runFor fuel s.turn else s

/-- The simulator once it no longer runs. -/
def settle (s : Simulator) : Simulator := runFor (UInt32.size / 2) s

def run (s : Simulator) : Except EngineError Simulator :=
  if s.powered then .ok { s with running := true } else .error .notPowered

/-! ## Power -/

/-- Power up at an entry point.  Memory, breakpoints and the count of
instructions stay. -/
def reset (s : Simulator) (entry stack : UInt32) : Simulator :=
  { s with
    registers := .atEntry entry stack
    interrupts := []
    powered := true
    running := false }

def shutdown (s : Simulator) : Except EngineError Simulator :=
  if s.powered then .ok { s with powered := false, running := false }
  else .error .alreadyShutdown

/-! ## Memory -/

def readByte (s : Simulator) (address : UInt32) : Except EngineError UInt8 :=
  match s.memory.cell? address.toNat with
  | some b => .ok b
  | none => .error (.invalidAddress address)

def writeByte (s : Simulator) (address : UInt32) (value : UInt8) :
    Except EngineError Simulator :=
  if address.toNat < s.memory.size then
    .ok { s with memory := s.memory.setCell address.toNat value }
  else .error (.invalidAddress address)

/-- Read a block.  Either all of it lies in memory or nothing is read. -/
def readBlock (s : Simulator) (address : UInt32) (length : Nat) :
    Except EngineError (List UInt8) :=
  match s.memory.block? address.toNat length with
  | some data => .ok data
  | none => .error (.invalidAddress address)

/-- Write a block.  Either all of it lies in memory or nothing is
written. -/
def writeBlock (s : Simulator) (address : UInt32) (data : List UInt8) :
    Simulator × Except EngineError Unit :=
  match s.memory.setBlock? address.toNat data with
  | some memory => ({ s with memory }, .ok ())
  | none => (s, .error (.invalidAddress address))

/-! ## Breakpoints and interrupts -/

def setBreakpoint (s : Simulator) (slot : Nat) (address : UInt32) (mask : AccessMask) :
    Except EngineError Simulator :=
  if h : slot < 16 then .ok { s with slots := s.slots.set slot (some { address, mask }) }
  else .error (.invalidBreakpointSlot slot)

def clearBreakpoints (s : Simulator) : Simulator := { s with slots := .replicate 16 none }

/-- The breakpoints set, in the order of their slots. -/
def breakpoints (s : Simulator) : List Breakpoint :=
  s.slots.toList.zipIdx.filterMap fun (stop, slot) =>
    stop.map fun stop => { slot, address := stop.address, mask := stop.mask }

def raiseInterrupt (s : Simulator) (line : UInt8) : Simulator :=
  { s with interrupts := s.interrupts ++ [line] }

/-- Hand over the remembered interrupts, oldest first. -/
def takeInterrupts (s : Simulator) : List UInt8 × Simulator :=
  (s.interrupts, { s with interrupts := [] })

instance : Engine Simulator where
  registers := registers
  powered := powered
  running := running
  reset s entry stack := .ok (s.reset entry stack)
  stepOne := stepOne
  run := run
  settle := settle
  shutdown := shutdown
  readByte := readByte
  writeByte := writeByte
  readBlock := readBlock
  writeBlock := writeBlock
  setBreakpoint := setBreakpoint
  clearBreakpoints := clearBreakpoints
  raiseInterrupt := raiseInterrupt

end Simulator

end Monitor68
