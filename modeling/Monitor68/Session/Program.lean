import Monitor68.Files.Path
import Monitor68.Session.Execution

/-!
# Programs in a session

A program is an image and, if there is one, a listing.  To load an image
is to start over with it: the engine is fresh unless nothing was loaded
before, and the listing of another program is dropped.  A listing is a
convenience, so attaching one never fails; at worst there is none.

To open a source is to load the image and to attach the listing that lie
beside it under the usual extensions.
-/

namespace Monitor68.Session

open Files

variable {ε : Type} [Engine ε]

/-! ## Images -/

/-- Load the image at a path into the engine as it is. -/
def loadImage (s : Session ε) (files : FileSystem) (path : String) : Result ε EntryPoint :=
  match files.openFile path with
  | .error error => s.fail (.load (.file error))
  | .ok contents =>
    let target : Target ε := { engine := s.engine, breakpoints := s.breakpoints }
    let (target, outcome) := Image.load target s.settings.base s.settings.stack contents.lines
    let s := { s with engine := target.engine, breakpoints := target.breakpoints }
    match outcome with
    | .error error => s.fail (.load error)
    | .ok entry =>
      let s := ({ s with listing := none } : Session ε).emit (.loaded entry.address)
      (.ok entry, s.enter .loaded)

/-- Load the image at a path.  A session with a program starts over
first. -/
def load (s : Session ε) (files : FileSystem) (path : String) : Result ε EntryPoint :=
  if s.state = .unloaded then s.loadImage files path
  else
    match s.reset with
    | (.error error, s) => (.error error, s)
    | (.ok (), s) => s.loadImage files path

/-! ## Listings -/

/-- The listing at a path, up to the first line that is no text, unless it
cannot be opened. -/
def readListing (files : FileSystem) (path : String) : Except FileError Listing :=
  (files.openFile path).map fun contents => Listing.ofLines (readableLines contents.lines)

/-- Attach the listing at a path, and watch its symbols if that is wanted. -/
def attach (s : Session ε) (files : FileSystem) (path : String) (importing : Bool) :
    Attachment × Session ε :=
  match readListing files path with
  | .error _ =>
    (.missing, ({ s with listing := none } : Session ε).emit (.listingAttached .missing))
  | .ok listing =>
    let attachment := .attached listing.lines.size listing.symbols.size
    let watches := if importing then s.watches.addSymbols listing.symbols.toList else s.watches
    let s := { s with watches, listing := some listing }
    (attachment, s.emit (.listingAttached attachment))

/-! ## Sources -/

/-- The extensions of images, in the order in which they are tried. -/
def imageExtensions : List String := ["h68", "H68"]

/-- The extension of a listing whose file is not there. -/
def listingExtension : String := "lst"

/-- The extensions of listings, in the order in which they are tried. -/
def listingExtensions : List String := [listingExtension, "LIS"]

/-- The first file beside a source that has one of the extensions. -/
def companion (files : FileSystem) (source : String) (extensions : List String) :
    Option String :=
  (extensions.map (Path.withExtension source)).find? files.isFile

/-- Open a source: load its image and attach its listing. -/
def openSource (s : Session ε) (files : FileSystem) (source : String) (importing : Bool) :
    Result ε (EntryPoint × Attachment) :=
  match companion files source imageExtensions with
  | none => s.fail (.missingImage source)
  | some image =>
    match s.load files image with
    | (.error error, s) => (.error error, s)
    | (.ok entry, s) =>
      let listing := (companion files source listingExtensions).getD
        (Path.withExtension source listingExtension)
      let (attachment, s) := s.attach files listing importing
      (.ok (entry, attachment), s)

end Monitor68.Session
