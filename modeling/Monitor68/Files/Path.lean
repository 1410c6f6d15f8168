/-!
# Paths

A path is cut at slashes.  Its file name is the last piece once slashes and
`/.` at the end are taken off, unless that piece is empty, `.` or `..`.
The extension of a file name is what follows its last dot, but a dot at
the very front starts no extension.
-/

namespace Monitor68.Files.Path

/-- The pieces of a path between its slashes. -/
def pieces (path : List Char) : List (List Char) :=
  path.foldr
    (fun c acc =>
      match acc with
      | piece :: rest => if c = '/' then [] :: piece :: rest else (c :: piece) :: rest
      | [] => [[c]])
    [[]]

/-- A reversed path without the slashes and the pieces `.` at its end. -/
def dropSlashes : List Char → List Char
  | '/' :: rest => dropSlashes rest
  | '.' :: '/' :: rest => dropSlashes rest
  | path => path

/-- A file name up to the dot of its extension. -/
def stem (name : List Char) : List Char :=
  match (name.reverse.dropWhile (· != '.')).tail with
  | [] => name
  | before => before.reverse

/-- The path with the extension of its file name replaced, or with one added
if it has none.  A path without a file name stays as it is.  The old
extension is taken off first, so a name that consists of two dots and an
extension is left without a name and stays so. -/
def withExtension (path extension : String) : String :=
  let whole := path.toList.reverse
  let reversed := dropSlashes whole
  let name := (reversed.takeWhile (· != '/')).reverse
  if name = [] ∨ name = ['.'] ∨ name = ['.', '.'] then path
  else
    let folder := (reversed.dropWhile (· != '/')).reverse
    if stem name = ['.'] ∧ reversed = whole then String.ofList (folder ++ ['.', '.'])
    else String.ofList (folder ++ stem name ++ '.' :: extension.toList)

end Monitor68.Files.Path
