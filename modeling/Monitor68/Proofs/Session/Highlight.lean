import Monitor68.Proofs.Session.Request
import Monitor68.Target.Simulator

/-!
# The source line shown

A view shows the source line at the program counter, as the attached
listing has it.  The listing is of one program and has to go when another
one comes.  Three things decide which listing is attached: to attach one,
also in vain, to load a program, and to start over.  They are operations
or parts of operations, and a load that fails may have started over
before.

`Mark` is one of these three, and `Request.marks` reads off the answers of
an operation which of them it came to.  The listing of a session is that
of the last mark of its history (`listing_after`), so a view shows a line
exactly if the last mark is a listing with a line for the program counter.
This holds for any engine, also for one that refuses to work.
-/

namespace Monitor68.Session

open Files

/-! ## Marks -/

/-- What decides which listing is attached. -/
inductive Mark where
  /-- A listing was attached, or there was none to be read. -/
  | attached (listing : Option Listing)
  /-- A program was loaded or the session started over. -/
  | cleared

/-- The listing that is attached after some marks. -/
def Mark.listing? (marks : List Mark) : Option Listing :=
  match marks.getLast? with
  | some (.attached listing) => listing
  | some .cleared => none
  | none => none

variable {ε : Type} [Engine ε]

/-- The mark of something that clears the listing if it succeeds. -/
def clearedBy {α : Type} : Except SessionError α → List Mark
  | .ok _ => [.cleared]
  | .error _ => []

/-- The marks of a load: one of the start over that comes first, and one of
the program. -/
def loadMarks (s : Session ε) (files : FileSystem) (path : String) : List Mark :=
  (if s.state = .unloaded then [] else clearedBy s.reset.1) ++ clearedBy (s.load files path).1

/-- The mark of an attempt to attach the listing at a path. -/
def attachMark (files : FileSystem) (path : String) : Mark :=
  .attached (readListing files path).toOption

/-- The marks of opening a source: those of the load, and one of the listing
beside the source if the load succeeds. -/
def openMarks (s : Session ε) (files : FileSystem) (source : String) : List Mark :=
  match companion files source imageExtensions with
  | none => []
  | some image =>
    s.loadMarks files image ++
      match (s.load files image).1 with
      | .error _ => []
      | .ok _ => [attachMark files ((companion files source listingExtensions).getD
          (Path.withExtension source listingExtension))]

/-- What an operation came to. -/
def Request.marks (s : Session ε) : Request → List Mark
  | .load files path => s.loadMarks files path
  | .openSource files source _ => s.openMarks files source
  | .attach files path _ => [attachMark files path]
  | .reset => clearedBy s.reset.1
  | .step | .run | .stop | .powerOff | .addBreakpoint _ | .editWatches _ | .refreshWatches => []

/-! ## Histories -/

/-- What can happen to a session on any engine: its owner asks for something,
the polling task has its turn, the engine moves by itself, or the engines
to be made from now on are others. -/
inductive Incident (ε : Type) where
  | asked (request : Request)
  | poll
  | moved (engine : ε)
  | supplied (fresh : ε)

def Incident.apply (s : Session ε) : Incident ε → Session ε
  | .asked request => (request.perform s).2
  | .poll => s.poll
  | .moved engine => { s with engine }
  | .supplied fresh => { s with fresh }

def Incident.marks (s : Session ε) : Incident ε → List Mark
  | .asked request => request.marks s
  | .poll | .moved _ | .supplied _ => []

/-- The session after a history. -/
def through (s : Session ε) (history : List (Incident ε)) : Session ε :=
  history.foldl Incident.apply s

/-- The marks of a history, oldest first. -/
def marksOf (s : Session ε) : List (Incident ε) → List Mark
  | [] => []
  | incident :: rest => incident.marks s ++ marksOf (incident.apply s) rest

/-! ## The listing that is attached -/

/-- Marks take a session from one listing to another: the last of them says
which, and without marks it stays. -/
def Mark.Lead (marks : List Mark) (before after : Option Listing) : Prop :=
  after = if marks = [] then before else Mark.listing? marks

namespace Mark.Lead

variable {first second third : Option Listing} {front back : List Mark}

theorem refl (listing : Option Listing) : Mark.Lead [] listing listing := rfl

theorem cleared (listing : Option Listing) : Mark.Lead [.cleared] listing none := rfl

theorem attached (before after : Option Listing) :
    Mark.Lead [.attached after] before after := rfl

theorem trans (h : Mark.Lead front first second) (h' : Mark.Lead back second third) :
    Mark.Lead (front ++ back) first third := by
  unfold Lead at h h' ⊢
  by_cases hback : back = []
  · simpa [hback, h] using h'
  · rw [if_neg hback] at h'
    rw [if_neg (by simp [hback]), h', listing?, listing?, List.getLast?_append,
      List.getLast?_eq_some_getLast hback]
    rfl

end Mark.Lead

section Operations

variable (s : Session ε)

theorem reset_leads : Mark.Lead (clearedBy s.reset.1) s.listing s.reset.2.listing := by
  rcases reset_cases s with ⟨error, -, h⟩ | ⟨-, h⟩
  · rw [h]
    exact .refl _
  · rw [h, startedOver, listing_enter]
    exact .cleared _

theorem loadImage_leads (files : FileSystem) (path : String) :
    Mark.Lead (clearedBy (s.loadImage files path).1) s.listing
      (s.loadImage files path).2.listing := by
  cases hopen : files.openFile path with
  | error error =>
    rw [loadImage_of_error s hopen]
    exact .refl _
  | ok c =>
    rcases loadImage_cases s hopen with ⟨error, -, h⟩ | ⟨entry, -, h⟩
    · rw [h]
      exact .refl _
    · rw [h, listing_enter]
      exact .cleared _

theorem load_leads (files : FileSystem) (path : String) :
    Mark.Lead (s.loadMarks files path) s.listing (s.load files path).2.listing := by
  unfold loadMarks
  rcases load_cases s files path with ⟨hstate, h⟩ | ⟨hstate, ⟨error, hreset, h⟩ | ⟨-, h⟩⟩
  · rw [if_pos hstate, h]
    exact loadImage_leads s files path
  · rw [if_neg hstate, h]
    exact (reset_leads s).trans (.refl _)
  · rw [if_neg hstate, h]
    exact (reset_leads s).trans (loadImage_leads s.reset.2 files path)

omit [Engine ε] in
theorem attach_leads (files : FileSystem) (path : String) (importing : Bool) :
    Mark.Lead [attachMark files path] s.listing (s.attach files path importing).2.listing := by
  unfold attach attachMark
  cases readListing files path with
  | error error => exact .attached _ _
  | ok listing => exact .attached _ _

theorem openSource_leads (files : FileSystem) (source : String) (importing : Bool) :
    Mark.Lead (s.openMarks files source) s.listing
      (s.openSource files source importing).2.listing := by
  unfold openMarks
  rcases openSource_cases s files source importing with ⟨himage, h⟩ | ⟨image, himage, h⟩
  · rw [himage, h]
    exact .refl _
  · have hload := s.load_leads files image
    rw [himage]
    rcases h with ⟨error, s', hanswer, h⟩ | ⟨entry, s', hanswer, h⟩
    · rw [h]
      rw [hanswer] at hload
      simp only [hanswer]
      exact hload.trans (.refl _)
    · rw [h]
      rw [hanswer] at hload
      simp only [hanswer]
      exact hload.trans (attach_leads s' files _ importing)

theorem step_leads : s.step.2.listing = s.listing := by
  rcases step_cases s with ⟨error, h⟩ | ⟨engine, -, -, -, h⟩
  · rw [h]
    rfl
  · rw [h]
    exact listing_enter _ _

theorem run_leads : s.run.2.listing = s.listing := by
  rcases run_cases s with ⟨error, h⟩ | ⟨-, -, h⟩ | ⟨engine, -, -, -, h⟩
  · rw [h]
    rfl
  · rw [h]
  · rw [h]
    exact listing_enter _ _

theorem powerDownTo_leads (state : SessionState) :
    (s.powerDownTo state).2.listing = s.listing := by
  rcases powerDownTo_cases s state with ⟨error, -, h⟩ | ⟨engine, -, h⟩
  · rw [h]
    rfl
  · rw [h]
    exact listing_enter _ _

theorem addBreakpoint_leads (address : UInt32) :
    (s.addBreakpoint address).2.listing = s.listing := by
  rcases addBreakpoint_cases s address with ⟨error, h⟩ | ⟨engine, -, h⟩
  · rw [h]
    rfl
  · rw [h]

/-- The step lemma. -/
theorem Incident.leads (incident : Incident ε) :
    Mark.Lead (incident.marks s) s.listing (incident.apply s).listing := by
  cases incident with
  | poll =>
    obtain ⟨state, watches, polling, events, h⟩ := poll_frame s
    rw [Incident.apply, h]
    exact .refl _
  | moved engine => exact .refl _
  | supplied fresh => exact .refl _
  | asked request =>
    cases request with
    | load files path => exact load_leads s files path
    | openSource files source importing => exact openSource_leads s files source importing
    | attach files path importing => exact attach_leads s files path importing
    | step => exact step_leads s
    | run => exact run_leads s
    | stop => exact powerDownTo_leads s .halted
    | powerOff => exact powerDownTo_leads s .poweredOff
    | reset => exact reset_leads s
    | addBreakpoint address => exact addBreakpoint_leads s address
    | editWatches edit => exact .refl _
    | refreshWatches => exact .refl _

/-- The run lemma. -/
theorem history_leads (history : List (Incident ε)) :
    Mark.Lead (s.marksOf history) s.listing (s.through history).listing := by
  induction history generalizing s with
  | nil => exact .refl _
  | cons incident rest ih => exact (incident.leads s).trans (ih (incident.apply s))

end Operations

/-- The listing of a session is that of the last mark of its history. -/
theorem listing_after (settings : Settings) (fresh : ε) (history : List (Incident ε)) :
    ((new settings fresh).through history).listing =
      Mark.listing? ((new settings fresh).marksOf history) := by
  rw [history_leads]
  split
  · rename_i hnone
    rw [hnone]
    rfl
  · rfl

/-! ## What is shown -/

/-- A step answers with a view that is made with the listing of the session. -/
theorem view_of_step {s : Session ε} {v : View} (h : s.step.1 = .ok v) :
    ∃ (engine : ε) (watches : List Watch), v = .of engine s.listing watches := by
  unfold step at h
  split at h
  · split at h
    · cases h
    · split at h
      · cases h
      · rename_i engine _
        cases h
        refine ⟨_, _, congrArg (View.of _ · _) ?_⟩
        exact listing_enter { s with engine } .stepping
  · cases h

/-- A view shows the line that a listing has for its program counter, if there
is a listing and it has one, and no line otherwise.  It has a row exactly if
it has a line. -/
def Highlights (listing : Option Listing) (v : View) : Prop :=
  v.line = (listing.bind fun l => l.lineFor v.registers.pc) ∧ v.row.isSome = v.line.isSome

theorem highlights_of (engine : ε) (listing : Option Listing) (watches : List Watch) :
    Highlights listing (.of engine listing watches) :=
  ⟨rfl, Option.isSome_map⟩

/-- After any history, the views that a look and a step answer with show the
lines of the listing that was attached last.  They show none if a program
was loaded or the session started over since, or if that listing was
missing. -/
theorem views_show_current_listing (settings : Settings) (fresh : ε)
    (history : List (Incident ε)) :
    let s := (new settings fresh).through history
    let attached := Mark.listing? ((new settings fresh).marksOf history)
    Highlights attached s.view ∧ ∀ v, s.step.1 = .ok v → Highlights attached v := by
  intro s attached
  have hlisting : s.listing = attached := listing_after settings fresh history
  rw [← hlisting]
  refine ⟨highlights_of _ _ _, fun v hstep => ?_⟩
  obtain ⟨engine, watches, rfl⟩ := view_of_step hstep
  exact highlights_of _ _ _

/-- A program of no records, and a listing for the instruction behind its
first. -/
def listedFiles : FileSystem where
  openFile path :=
    if path = "p.h68" then .ok { bytes := [] }
    else if path = "p.lst" then .ok { bytes := "00:00008002 4e71 7: nop\n".toUTF8.toList }
    else .error .notFound
  isFile path := path = "p.h68" || path = "p.lst"
  obstacle _ := none

def sourceOpened : List (Incident Simulator) := [.asked (.openSource listedFiles "p.s" false)]

/-- A load that fails after it has started over. -/
def programLost : List (Incident Simulator) :=
  sourceOpened ++ [.asked (.load listedFiles "q.h68")]

theorem opened_source_is_shown :
    (∃ v, ((new {} (Simulator.blank 0x8010)).through sourceOpened).step.1 = .ok v ∧
      v.line = some 7) ∧
    ((new {} (Simulator.blank 0x8010)).through programLost).view.line = none := by
  obtain ⟨-, hopened⟩ := views_show_current_listing {} (Simulator.blank 0x8010) sourceOpened
  obtain ⟨hlost, -⟩ := views_show_current_listing {} (Simulator.blank 0x8010) programLost
  constructor
  · have hanswer : ((new {} (Simulator.blank 0x8010)).through sourceOpened).step.1.toOption.map
        (·.registers.pc) = some 0x8002 := by
      decide +kernel
    generalize ((new {} (Simulator.blank 0x8010)).through sourceOpened).step.1 = answer at *
    cases answer with
    | error error => cases hanswer
    | ok v =>
      have hpc : v.registers.pc = 0x8002 := Option.some.inj hanswer
      refine ⟨v, rfl, (hopened v rfl).1.trans ?_⟩
      rw [hpc]
      decide +kernel
  · have hnone : Mark.listing? ((new {} (Simulator.blank 0x8010)).marksOf programLost) = none :=
      Option.isNone_iff_eq_none.1 (by decide +kernel)
    exact hlost.1.trans (by rw [hnone]; rfl)

end Monitor68.Session
