import Monitor68.Command.Perform
import Monitor68.Proofs.Image.Load
import Monitor68.Proofs.Session.Stepping

/-!
# How a command begins

A command loads its settings and opens a session with its image, and goes on
only if both succeed.  `Configured` and `Loadable` say when they do, and
`Opened` says what the session is then.
-/

namespace Monitor68.Command

open Text Files Session

/-- The settings that a command is performed under: those of the file that is
named, or the defaults. -/
inductive Configured (files : FileSystem) : Option String → Settings → Prop where
  | default : Configured files none {}
  | named {path : String} {settings : Settings}
      (loads : Settings.load files path = .ok settings) : Configured files (some path) settings

/-- An image that can be loaded: it can be opened, its lines are sound, and its
records fit in memory. -/
structure Loadable (files : FileSystem) (image : String) (contents : Contents) : Prop where
  opened : files.openFile image = .ok contents
  sound : ∀ line ∈ contents.lines, Image.Sound line
  fits : ∀ r ∈ contents.lines.filterMap Image.recordOf?, Image.Fits 0x70000 r

/-- The memory of a simulator with an image in it. -/
def imageMemory (contents : Contents) : Memory :=
  Image.deposit (.blank 0x70000) (contents.lines.filterMap Image.recordOf?)

/-- A session that was opened with an image and entered at its entry point. -/
structure Opened (settings : Settings) (contents : Contents) (entry : EntryPoint)
    (s : Session Simulator) : Prop where
  entryOf : Image.EntryOf settings.base (contents.lines.filterMap Image.recordOf?) entry
  ready : Ready s
  memory : s.engine.memory = imageMemory contents
  registers : s.engine.registers = .atEntry entry.address settings.stack
  listing : s.listing = none
  watches : s.watches = {}

theorem Opened.size {settings : Settings} {contents : Contents} {entry : EntryPoint}
    {s : Session Simulator} (h : Opened settings contents entry s) :
    s.engine.memory.size = 0x70000 := by
  rw [h.memory]
  exact Image.size_deposit _ _

/-! ## Settings -/

theorem loadSettings_ok_iff {files : FileSystem} {path? : Option String} {settings : Settings} :
    loadSettings files path? = .ok settings ↔ Configured files path? settings := by
  constructor
  · intro h
    cases path? with
    | none =>
      obtain rfl := Except.ok.inj h
      exact .default
    | some path =>
      rw [loadSettings] at h
      cases hload : Settings.load files path with
      | error error => rw [hload] at h; cases h
      | ok loaded =>
        rw [hload] at h
        obtain rfl := Except.ok.inj h
        exact .named hload
  · intro h
    cases h with
    | default => rfl
    | named loads => rw [loadSettings, loads]

/-! ## Sessions -/

/-- The session as the command makes it. -/
def fresh (settings : Settings) : Session Simulator :=
  .new settings (.blank Simulator.defaultSize)

theorem openSession_eq (files : FileSystem) (settings : Settings) (image : String) :
    openSession files settings image =
      match (fresh settings).loadImage files image with
      | (.ok _, s) => .ok s
      | (.error error, _) =>
        .error ((Failure.ofSession error).within ("Failed to load " ++ image)) :=
  rfl

/-- A session opens with an image that can be loaded, at its entry point. -/
theorem openSession_of_loadable {files : FileSystem} {image : String} {contents : Contents}
    (h : Loadable files image contents) (settings : Settings) :
    ∃ entry s, openSession files settings image = .ok s ∧ Opened settings contents entry s := by
  have hload := Image.load_of_sound (fresh settings).target settings.base settings.stack h.sound
    h.fits
  rcases (fresh settings).loadImage_cases h.opened with ⟨error, herror, -⟩ | ⟨entry, hentry, hopen⟩
  · exact absurd (herror.symm.trans (congrArg Prod.snd hload)) nofun
  · obtain rfl : entry = _ := Except.ok.inj (hentry.symm.trans (congrArg Prod.snd hload))
    have hengine : (Image.load (fresh settings).target settings.base settings.stack
        contents.lines).1.engine = _ := congrArg (fun out => out.1.engine) hload
    refine ⟨_, _, by rw [openSession_eq, hopen], Image.entryOf_entryPoint _ _, ⟨?_, ?_⟩, ?_, ?_, ?_,
      ?_⟩
    · rw [Session.engine_enter]
      exact congrArg Simulator.powered hengine
    · rw [Session.engine_enter]
      exact congrArg Simulator.running hengine
    · rw [Session.engine_enter]
      exact congrArg Simulator.memory hengine
    · rw [Session.engine_enter]
      exact congrArg Simulator.registers hengine
    · rw [Session.listing_enter]
      rfl
    · rw [Session.watches_enter]
      rfl

/-- No session opens with an image that cannot be loaded. -/
theorem openSession_of_unloadable {files : FileSystem} {image : String}
    (h : ¬ ∃ contents, Loadable files image contents) (settings : Settings) :
    ∃ failure, openSession files settings image = .error failure := by
  cases hopen : files.openFile image with
  | error error => exact ⟨_, by rw [openSession_eq, Session.loadImage_of_error _ hopen]; rfl⟩
  | ok contents =>
    rcases (fresh settings).loadImage_cases hopen with ⟨error, -, hfail⟩ | ⟨entry, hentry, -⟩
    · exact ⟨_, by rw [openSession_eq, hfail]; rfl⟩
    · obtain ⟨hsound, hfits⟩ := (Image.load_ok_iff _ _ _ _).1 ⟨entry, hentry⟩
      exact absurd ⟨contents, hopen, hsound, hfits⟩ h

end Monitor68.Command
