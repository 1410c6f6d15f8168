import Std.Data.ExtTreeMap
import Monitor68.Listing.Line

/-!
# Listings

A listing tells which source line the code at an address came from, and
where each symbol lies.  It is read in one pass over its lines with two
modes: the reader looks for code lines until a line opens the table of
symbols, and then for symbol lines until a blank line closes the table.
A later line about the same address or the same name replaces an earlier
one.
-/

namespace Monitor68

/-- A listing: source lines by address, and addresses by symbol.  Both maps
are kept in key order, symbols in the order of their characters' codes. -/
structure Listing where
  lines : Std.ExtTreeMap UInt32 UInt32 := ∅
  symbols : Std.ExtTreeMap String UInt32 := ∅

namespace Listing

/-- The listing that says nothing. -/
def empty : Listing := {}

/-- The source line of an address. -/
def lineFor (l : Listing) (address : UInt32) : Option UInt32 := l.lines[address]?

/-- The address of a symbol. -/
def lookupSymbol (l : Listing) (name : String) : Option UInt32 := l.symbols[name]?

/-- What the reader is looking for. -/
inductive Mode where
  | code
  | symbols
deriving DecidableEq, Repr

/-- The reader between two lines. -/
structure Reader where
  mode : Mode := .code
  listing : Listing := {}

/-- Take one line into account. -/
def Reader.feed (r : Reader) (line : String) : Reader :=
  let cs := line.toList
  match r.mode with
  | .code =>
    if opensSymbols cs then { r with mode := .symbols }
    else
      match codeLine? cs with
      | some (address, row) =>
        { r with listing := { r.listing with lines := r.listing.lines.insert address row } }
      | none => r
  | .symbols =>
    if isBlankLine cs then { r with mode := .code }
    else
      match symbolLine? cs with
      | some (name, address) =>
        { r with listing := { r.listing with symbols := r.listing.symbols.insert name address } }
      | none => r

def ofLines (lines : List String) : Listing := (lines.foldl Reader.feed {}).listing

end Listing

end Monitor68
