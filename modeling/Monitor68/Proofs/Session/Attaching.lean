import Monitor68.Files.Tree
import Monitor68.Proofs.Listing.Continuing
import Monitor68.Proofs.Session.Request
import Monitor68.Target.Simulator

/-!
# What it means that a listing is attached

A listing is missing if its file cannot be opened.  A file that can be opened
but not be read to its end is not told apart from one that ends there: its
lines in front of the fault are attached as if they were the whole.  A
directory is such a file, which fails at its first byte.

`attached_is_whole_iff` is about attaching a listing by its path and about
opening a source, which attaches the listing beside it.  What is told is the
truth about the whole file exactly if no fault ends the reading.
-/

namespace Monitor68

open Files Text

/-- The bytes of an opened file whose lines are read: all of them, or those up
to the last line feed if a fault follows. -/
def Files.Contents.readPart (c : Contents) : List UInt8 :=
  if c.fault.isSome then endedPart c.bytes else c.bytes

theorem Listing.ofContents_eq (c : Contents) : ofContents c = ofBytes c.readPart := by
  obtain ⟨bytes, fault⟩ := c
  cases fault with
  | none => rfl
  | some fault => exact congrArg ofLines (readableLines_fault bytes fault)

namespace Session

variable {ε : Type}

/-! ## Attaching -/

/-- What an attempt to attach a listing comes to, by what the opening of its
file gives. -/
inductive Attaches (s : Session ε) (importing : Bool) :
    Except FileError Contents → Attachment × Session ε → Prop where
  | missing (error : FileError) :
    Attaches s importing (.error error)
      (.missing, ({ s with listing := none } : Session ε).emit (.listingAttached .missing))
  | attached {c : Contents} {listing : Listing} {watches : WatchList} {attachment : Attachment} :
    listing = .ofBytes c.readPart →
    watches = (if importing then s.watches.addSymbols listing.symbols.toList else s.watches) →
    attachment = .attached listing.lines.size listing.symbols.size →
    Attaches s importing (.ok c)
      (attachment,
        ({ s with watches, listing := some listing } : Session ε).emit
          (.listingAttached attachment))

theorem attaches (s : Session ε) (files : FileSystem) (path : String) (importing : Bool) :
    Attaches s importing (files.openFile path) (s.attach files path importing) := by
  cases hopen : files.openFile path with
  | error error =>
    have hlisting : readListing files path = .error error := congrArg (Except.map _) hopen
    rw [attach, hlisting]
    exact .missing error
  | ok c =>
    have hlisting : readListing files path = .ok (.ofContents c) := congrArg (Except.map _) hopen
    rw [attach, hlisting]
    exact .attached (Listing.ofContents_eq c) rfl rfl

/-- Whether an attached listing is that of a file read to its end, and any other
file leaves the session without a listing and its variables as they were. -/
structure WholeOrMissing (opened : Except FileError Contents) (before : Session ε)
    (outcome : Attachment × Session ε) : Prop where
  attached : ∀ lines symbols, outcome.1 = .attached lines symbols →
    ∃ bytes, opened = .ok { bytes } ∧
      lines = (Listing.ofBytes bytes).lines.size ∧
      symbols = (Listing.ofBytes bytes).symbols.size
  missing : (∀ bytes, opened ≠ .ok { bytes }) →
    outcome.1 = .missing ∧ outcome.2.listing = none ∧ outcome.2.watches = before.watches

theorem Attaches.wholeOrMissing_iff {before s : Session ε} {importing : Bool}
    {opened : Except FileError Contents} {outcome : Attachment × Session ε}
    (h : Attaches s importing opened outcome) (hwatches : s.watches = before.watches) :
    WholeOrMissing opened before outcome ↔ ∀ c, opened = .ok c → c.fault = none := by
  cases h with
  | missing error =>
    refine ⟨fun _ c hopen => (nomatch hopen), fun _ => ?_⟩
    exact ⟨fun lines symbols htold => (nomatch htold), fun _ => ⟨rfl, rfl, hwatches⟩⟩
  | @attached c listing watches attachment hlisting _ hattachment =>
    constructor
    · intro hwhole c' hopen
      obtain ⟨bytes, hbytes, -⟩ := hwhole.attached _ _ hattachment
      cases hopen
      cases hbytes
      rfl
    · intro hfault
      obtain ⟨bytes, fault⟩ := c
      obtain rfl : fault = none := hfault _ rfl
      have hwhole : listing = .ofBytes bytes := hlisting
      refine ⟨fun lines symbols htold => ?_, fun hnot => absurd rfl (hnot bytes)⟩
      rw [hattachment, hwhole] at htold
      cases htold
      exact ⟨bytes, rfl, rfl, rfl⟩

/-! ## Opening a source -/

section Source

variable [Engine ε]

/-- To load a program keeps the variables, whether or not it succeeds. -/
theorem watches_load (s : Session ε) (files : FileSystem) (path : String) :
    (s.load files path).2.watches = s.watches := by
  have himage : ∀ t : Session ε, (t.loadImage files path).2.watches = t.watches := by
    intro t
    cases hopen : files.openFile path with
    | error error =>
      rw [loadImage_of_error t hopen]
      rfl
    | ok c =>
      rcases loadImage_cases t hopen with ⟨error, -, h⟩ | ⟨entry, -, h⟩
      · rw [h]
        rfl
      · rw [h]
        exact watches_enter _ _
  have hreset : s.reset.2.watches = s.watches := by
    rcases reset_cases s with ⟨error, -, h⟩ | ⟨-, h⟩
    · rw [h]
      rfl
    · rw [h]
      exact watches_enter _ _
  rcases load_cases s files path with ⟨-, h⟩ | ⟨-, ⟨error, -, h⟩ | ⟨-, h⟩⟩
  · rw [h, himage]
  · rw [h, hreset]
  · rw [h, himage, hreset]

/-- The path of the listing beside a source. -/
def listingBeside (files : FileSystem) (source : String) : String :=
  (companion files source listingExtensions).getD (Path.withExtension source listingExtension)

/-- A source that is opened has its image loaded and then its listing attached. -/
theorem openSource_attaches {s s' : Session ε} {files : FileSystem} {source : String}
    {importing : Bool} {entry : EntryPoint} {attachment : Attachment}
    (h : s.openSource files source importing = (.ok (entry, attachment), s')) :
    ∃ image loaded, companion files source imageExtensions = some image ∧
      s.load files image = (.ok entry, loaded) ∧
      Attaches loaded importing (files.openFile (listingBeside files source))
        (attachment, s') := by
  rcases openSource_cases s files source importing with ⟨-, hfail⟩ |
    ⟨image, himage, ⟨error, t, -, hfail⟩ | ⟨entry', loaded, hload, hopened⟩⟩
  · rw [hfail] at h
    cases h
  · rw [hfail] at h
    cases h
  · rw [hopened] at h
    cases h
    exact ⟨image, loaded, himage, hload, attaches loaded files _ importing⟩

/-- To attach a listing tells the truth about the whole file exactly if no fault
ends the reading of a file that could be opened, and so does opening a source
about the listing beside it.  With a fault the lines in front of it are
attached. -/
theorem attached_is_whole_iff (s : Session ε) (files : FileSystem) (importing : Bool) :
    (∀ path,
      let opened := files.openFile path
      let outcome := s.attach files path importing
      Attaches s importing opened outcome ∧
        (WholeOrMissing opened s outcome ↔ ∀ c, opened = .ok c → c.fault = none)) ∧
    ∀ source entry attachment s',
      s.openSource files source importing = (.ok (entry, attachment), s') →
      let opened := files.openFile (listingBeside files source)
      (∃ image loaded, companion files source imageExtensions = some image ∧
        s.load files image = (.ok entry, loaded) ∧
        Attaches loaded importing opened (attachment, s')) ∧
      (WholeOrMissing opened s (attachment, s') ↔ ∀ c, opened = .ok c → c.fault = none) := by
  constructor
  · intro path opened outcome
    have hattach := attaches s files path importing
    exact ⟨hattach, hattach.wholeOrMissing_iff rfl⟩
  · intro source entry attachment s' hopened opened
    obtain ⟨image, loaded, himage, hload, hattach⟩ := openSource_attaches hopened
    have hwatches : loaded.watches = s.watches := by
      have hkept := watches_load s files image
      rwa [hload] at hkept
    exact ⟨⟨image, loaded, himage, hload, hattach⟩, hattach.wholeOrMissing_iff hwatches⟩

end Source

/-! ## Files that cannot be read to their end -/

/-- An image, and a listing whose second line cannot be read to its end. -/
def interruptedFiles : FileSystem where
  openFile path :=
    if path = "p.h68" then .ok { bytes := [] }
    else if path = "p.lst" then
      .ok {
        bytes := encodeUtf8 "00:00008000 4E71 4:\n00:0000".toList
        fault := some (.other "Input/output error (os error 5)") }
    else .error .notFound
  isFile path := path = "p.h68" || path = "p.lst"
  obstacle _ := none

/-- The line in front of the fault is told as if it were the whole listing. -/
theorem interrupted_listing_is_attached :
    let s := Session.new {} (Simulator.blank 0x8010)
    let s' := (s.openSource interruptedFiles "p.s" false).2
    let opened := interruptedFiles.openFile (listingBeside interruptedFiles "p.s")
    s.openSource interruptedFiles "p.s" false =
      (.ok ({ address := 0x8000, explicit := false }, .attached 1 0), s') ∧
    (∃ image loaded, companion interruptedFiles "p.s" imageExtensions = some image ∧
      s.load interruptedFiles image = (.ok { address := 0x8000, explicit := false }, loaded) ∧
      Attaches loaded false opened (.attached 1 0, s')) ∧
    ¬ WholeOrMissing opened s (.attached 1 0, s') := by
  intro s s' opened
  have hanswer : s.openSource interruptedFiles "p.s" false =
      (.ok ({ address := 0x8000, explicit := false }, .attached 1 0), s') :=
    Prod.ext (by decide +kernel) rfl
  obtain ⟨-, hsource⟩ := attached_is_whole_iff s interruptedFiles false
  obtain ⟨hattach, hiff⟩ := hsource "p.s" _ _ s' hanswer
  refine ⟨hanswer, hattach, fun hwhole => ?_⟩
  have hopened : opened.toOption.map (·.fault.isSome) = some true := by decide +kernel
  cases hopen : opened with
  | error error =>
    rw [hopen] at hopened
    cases hopened
  | ok c =>
    rw [hopen] at hopened
    have hfault : c.fault = none := hiff.1 hwhole c hopen
    simp [Except.toOption, hfault] at hopened

/-- A working directory with a directory where a listing is looked for. -/
def directoryAlone : Tree := { entries := [(["p.lst".toList], .directory)] }

/-- An attached listing need not be that of a file: a directory cannot be read and
is not missing. -/
theorem directory_is_attached :
    ¬ ∀ (s : Session Simulator) (files : FileSystem) (path : String) (importing : Bool),
      WholeOrMissing (files.openFile path) s (s.attach files path importing) := by
  intro h
  have hopen : directoryAlone.fileSystem.openFile "p.lst" =
      .ok { bytes := [], fault := some .isADirectory } := by decide +kernel
  have hunread : ∀ bytes, directoryAlone.fileSystem.openFile "p.lst" ≠ .ok { bytes } := by
    intro bytes hread
    rw [hopen] at hread
    cases hread
  have hwhole := h (Session.new {} (Simulator.blank 16)) directoryAlone.fileSystem "p.lst" false
  obtain ⟨hmissing, -⟩ := hwhole.missing hunread
  exact absurd hmissing (by decide +kernel)

end Session

end Monitor68
