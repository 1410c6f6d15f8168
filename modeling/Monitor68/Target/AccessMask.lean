/-!
# Access masks

A breakpoint watches some of the four kinds of access that the target
makes: user or supervisor, data or program.  A mask is a set of such kinds,
one bit each.
-/

namespace Monitor68

/-- The kinds of access that a breakpoint watches. -/
structure AccessMask where
  bits : UInt8
deriving DecidableEq, Repr

namespace AccessMask

/-- Program fetches in supervisor mode. -/
def supervisorProgram : AccessMask := ⟨0x08⟩

/-- Data and program accesses in supervisor mode. -/
def supervisor : AccessMask := ⟨0x0C⟩

/-- Whether every kind in `other` is also in `mask`. -/
def contains (mask other : AccessMask) : Bool := mask.bits &&& other.bits == other.bits

end AccessMask

end Monitor68
