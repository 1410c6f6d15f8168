import Monitor68.Files.Basic
import Monitor68.Files.Path

/-!
# A tree of files

Files and directories below one working directory, held in memory.  A path
is followed piece by piece: `.` and empty pieces stay in a directory, `..`
goes up, and a name goes down.  What lies above the working directory is
not known, so a path that leaves the tree finds nothing there.
-/

namespace Monitor68.Files

/-- What a name in a directory stands for. -/
inductive Node where
  | file (bytes : List UInt8)
  | directory
deriving DecidableEq, Repr

/-- A place in the tree: the names that lead there from its top. -/
abbrev Place := List (List Char)

/-- The files and directories below the working directory. -/
structure Tree where
  entries : List (Place × Node) := []
deriving Repr

namespace Tree

/-- What is at a place.  The top is a directory. -/
def node? (t : Tree) (place : Place) : Option Node :=
  if place = [] then some .directory else t.entries.lookup place

def longestName : Nat := 255

def longestPath : Nat := 4095

/-- Follow pieces of a path from a place; `none` is a directory outside the
tree. -/
def follow (t : Tree) : Option Place → List (List Char) → Except FileError (Option Place)
  | place, [] => .ok place
  | none, piece :: rest =>
    if piece = [] ∨ piece = ['.'] ∨ piece = ['.', '.'] then t.follow none rest
    else .error .notFound
  | some place, piece :: rest =>
    if t.node? place ≠ some .directory then .error .notADirectory
    else if piece = [] ∨ piece = ['.'] then t.follow (some place) rest
    else if piece = ['.', '.'] then
      t.follow (if place = [] then none else some place.dropLast) rest
    else if longestName < (Text.encodeUtf8 piece).length then .error .nameTooLong
    else if (t.node? (place ++ [piece])).isNone then .error .notFound
    else t.follow (some (place ++ [piece])) rest

/-- Where a path begins: an absolute one outside the tree. -/
def origin (path : List Char) : Option Place :=
  if path.head? = some '/' then none else some []

/-- The faults of a path as a text, whatever the tree holds. -/
def pathFault (path : List Char) : Option FileError :=
  if '\x00' ∈ path then some .nulInPath
  else if path = [] then some .notFound
  else if longestPath < (Text.encodeUtf8 path).length then some .nameTooLong
  else none

def find (t : Tree) (path : String) : Except FileError Node :=
  let cs := path.toList
  match pathFault cs with
  | some fault => .error fault
  | none =>
    match t.follow (origin cs) (Path.pieces cs) with
    | .error e => .error e
    | .ok none => .ok .directory
    | .ok (some place) => .ok ((t.node? place).getD .directory)

def openFile (t : Tree) (path : String) : Except FileError Contents :=
  match t.find path with
  | .error e => .error e
  | .ok (.file bytes) => .ok { bytes }
  | .ok .directory => .ok { bytes := [], fault := some .isADirectory }

def isFile (t : Tree) (path : String) : Bool :=
  match t.find path with
  | .ok (.file _) => true
  | _ => false

/-- Why no file can be written at a path, if none can.  Its directory must
exist, and the path must not be that of a directory or be written as
one. -/
def obstacle (t : Tree) (path : String) : Option FileError :=
  let cs := path.toList
  match pathFault cs with
  | some fault => some fault
  | none =>
    let trimmed := (cs.reverse.dropWhile (· == '/')).reverse
    let pieces := Path.pieces trimmed
    match t.follow (origin cs) pieces.dropLast with
    | .error e => some e
    | .ok none => some .isADirectory
    | .ok (some folder) =>
      let name := pieces.getLast?.getD []
      if t.node? folder ≠ some .directory then some .notADirectory
      else if trimmed.length < cs.length ∨ name = ['.'] ∨ name = ['.', '.'] then
        some .isADirectory
      else if longestName < (Text.encodeUtf8 name).length then some .nameTooLong
      else if t.node? (folder ++ [name]) = some .directory then some .isADirectory
      else none

def fileSystem (t : Tree) : FileSystem where
  openFile := t.openFile
  isFile := t.isFile
  obstacle := t.obstacle

/-! ## Changing the tree -/

/-- The place that the names in a path lead to. -/
def placeOf (path : String) : Place :=
  (Path.pieces path.toList).filter fun piece => piece ≠ [] ∧ piece ≠ ['.']

/-- The tree with a node put at a place, and with the directories that lead
to it. -/
def insert (t : Tree) (path : String) (node : Node) : Tree :=
  let place := placeOf path
  let parents := (List.range' 1 (place.length - 1)).map place.take
  let missing := parents.filter fun p => (t.node? p).isNone
  let others := t.entries.filter fun (p, _) => p ≠ place
  { entries := (place, node) :: others ++ missing.map (·, .directory) }

/-- The tree without the node at a place. -/
def erase (t : Tree) (path : String) : Tree :=
  let place := placeOf path
  { entries := t.entries.filter fun (p, _) => p ≠ place }

end Tree

end Monitor68.Files
