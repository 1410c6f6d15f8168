import Monitor68.Inspect.Decode

/-!
# Watched variables

The user watches addresses under a name and in an encoding.  A variable
keeps the value that it was last refreshed to.  Ids count the additions
and are never given out twice; the order is that of the additions.

A symbol is watched by name: if a variable already carries the name, it
moves to the new address and keeps its encoding, so watching the symbols
of a rebuilt program adds nothing twice.  A variable that moves forgets
its value.
-/

namespace Monitor68

/-- An address that the user keeps an eye on. -/
structure Watch where
  id : UInt32
  address : UInt32
  name : String
  encoding : Encoding
  /-- The value, or the text of the error, as of the last refresh. -/
  value : String := ""
deriving DecidableEq, Repr

/-- The watched variables, oldest first. -/
structure WatchList where
  watches : List Watch := []
  nextId : UInt32 := 0
deriving DecidableEq, Repr

namespace WatchList

def empty : WatchList := {}

/-- The name of the next variable if the user gives it none. -/
def defaultName (w : WatchList) : String :=
  "userdef_" ++ Text.Numeral.decimal w.watches.length

/-- Watch an address.  An empty name counts as none. -/
def add (w : WatchList) (address : UInt32) (name : Option String) (encoding : Encoding) :
    UInt32 × WatchList :=
  let name := (name.filter (· ≠ "")).getD w.defaultName
  let watch := { id := w.nextId, address, name, encoding }
  (w.nextId, { watches := w.watches ++ [watch], nextId := w.nextId + 1 })

/-- Change the first variable that satisfies a test. -/
def modifyFirst (test : Watch → Bool) (change : Watch → Watch) : List Watch → List Watch
  | [] => []
  | v :: vs => if test v then change v :: vs else v :: modifyFirst test change vs

/-- The variable at a new address; if it moved, without its value. -/
def relocate (address : UInt32) (v : Watch) : Watch :=
  if v.address = address then v else { v with address, value := "" }

def addSymbol (w : WatchList) (name : String) (address : UInt32) : UInt32 × WatchList :=
  match w.watches.find? (·.name == name) with
  | some v =>
    (v.id, { w with watches := modifyFirst (·.name == name) (relocate address) w.watches })
  | none => w.add address (some name) .unsignedByte

def addSymbols (w : WatchList) (symbols : List (String × UInt32)) : WatchList :=
  symbols.foldl (fun w (name, address) => (w.addSymbol name address).2) w

def get? (w : WatchList) (id : UInt32) : Option Watch := w.watches.find? (·.id == id)

/-- Stop watching a variable.  The answer tells whether there was one. -/
def remove (w : WatchList) (id : UInt32) : Bool × WatchList :=
  (w.watches.any (·.id == id), { w with watches := w.watches.filter (·.id != id) })

def clear (w : WatchList) : WatchList := { w with watches := [] }

/-- Show a variable in another encoding.  The answer tells whether there
was one. -/
def setEncoding (w : WatchList) (id : UInt32) (encoding : Encoding) : Bool × WatchList :=
  (w.watches.any (·.id == id),
    { w with watches := modifyFirst (·.id == id) (fun v => { v with encoding }) w.watches })

variable {ε : Type} [Engine ε]

/-- A variable with the value that memory gives it now. -/
def refreshed (e : ε) (v : Watch) : Watch :=
  { v with value := Decode.shown e v.address v.encoding }

/-- The variables with their present values; the list keeps the old
ones. -/
def evaluate (w : WatchList) (e : ε) : List Watch := w.watches.map (refreshed e)

/-- The list with all values brought up to date. -/
def refresh (w : WatchList) (e : ε) : WatchList := { w with watches := w.evaluate e }

end WatchList

end Monitor68
