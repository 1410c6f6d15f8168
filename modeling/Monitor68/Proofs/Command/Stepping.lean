import Mathlib.Data.Nat.Find
import Monitor68.Proofs.Command.Opening
import Monitor68.Proofs.Listing.Entries

/-!
# The command that executes single steps

The command opens a session with an image and steps as often as it is told
or until a step fails.  A step moves the program counter on by two bytes
and fails only where memory ends; counters wrap around at the top of the
address space, so an entry point just below it steps on at address zero.

`Course` counts the steps that an entry point is good for.  `stepsFrom_eq`
is the run, by induction on the steps that are asked for, with what one
step does in `Session.step_within` and `Session.step_beyond`.  What decides
a step is compared in `Alike`; the breakpoints are not part of it.
-/

namespace Monitor68.Command

open Text Files Session

/-! ## What is to be printed -/

/-- The program counter after so many steps from an address. -/
def counterAfter (pc : UInt32) (steps : Nat) : UInt32 := UInt32.ofNat (pc.toNat + 2 * steps)

/-- From an address exactly so many consecutive steps stay in a memory. -/
structure Course (size : Nat) (pc : UInt32) (steps : Nat) : Prop where
  inside : ∀ i, 1 ≤ i → i ≤ steps → (pc.toNat + 2 * i) % UInt32.size < size
  outside : ¬ (pc.toNat + 2 * (steps + 1)) % UInt32.size < size

/-- The row that the last entry about an address in a listing gives, if the
listing is named and can be opened. -/
def rowIn (files : FileSystem) (path? : Option String) (address : UInt32) : Option UInt32 :=
  match path?.bind fun path => (files.openFile path).toOption with
  | none => none
  | some contents =>
    ((Listing.entries (readableLines contents.lines)).filter (·.1 = address)).getLast?.map Prod.snd

/-- The line about a step to an address. -/
def stepText (pc : UInt32) (row : Option UInt32) : String :=
  "PC=0x" ++ Numeral.addressText pc ++ " SR=--S--210-------- line " ++
    (row.map fun row => Numeral.decimal row.toNat).getD "unknown"

/-! ## The steps that an address is good for -/

theorem toNat_counterAfter (pc : UInt32) (steps : Nat) :
    (counterAfter pc steps).toNat = (pc.toNat + 2 * steps) % UInt32.size := by
  rw [counterAfter, UInt32.toNat_ofNat']

theorem counterAfter_one (pc : UInt32) : counterAfter pc 1 = pc + 2 := by
  rw [← UInt32.toNat_inj, toNat_counterAfter, UInt32.toNat_add]
  rfl

theorem counterAfter_succ (pc : UInt32) (steps : Nat) :
    counterAfter pc (steps + 1) = counterAfter (pc + 2) steps := by
  have htwo : (2 : UInt32).toNat = 2 := rfl
  rw [← UInt32.toNat_inj, toNat_counterAfter, toNat_counterAfter, UInt32.toNat_add, htwo]
  simp only [UInt32.size]
  omega

/-- Every address is good for a number of steps, since the end of memory is met
before the counter comes round. -/
theorem exists_course {size : Nat} (hsize : size + 2 < UInt32.size) (pc : UInt32) :
    ∃ steps, Course size pc steps := by
  have hfails : ∃ steps, ¬ (pc.toNat + 2 * (steps + 1)) % UInt32.size < size := by
    obtain ⟨steps, -, hbeyond⟩ := Simulator.exists_beyond (Nat.le_of_lt hsize) pc
    exact ⟨steps, hbeyond⟩
  refine ⟨Nat.find hfails, fun i hi hle => ?_, Nat.find_spec hfails⟩
  have hmin := Nat.find_min hfails (m := i - 1) (by omega)
  rw [Nat.sub_add_cancel hi] at hmin
  exact Decidable.of_not_not hmin

theorem Course.succ {size : Nat} {pc : UInt32} {steps : Nat} (h : Course size pc (steps + 1)) :
    (pc + 2).toNat < size ∧ Course size (pc + 2) steps := by
  have hnext : (pc + 2).toNat = (pc.toNat + 2) % UInt32.size := UInt32.toNat_add pc 2
  have hshift : ∀ i, ((pc + 2).toNat + 2 * i) % UInt32.size =
      (pc.toNat + 2 * (i + 1)) % UInt32.size := by
    intro i
    rw [hnext]
    simp only [UInt32.size]
    omega
  refine ⟨hnext ▸ h.inside 1 (Nat.le_refl 1) (by omega), fun i hi hle => ?_, ?_⟩
  · rw [hshift]
    exact h.inside (i + 1) (by omega) (by omega)
  · rw [hshift]
    exact h.outside

theorem Course.zero {size : Nat} {pc : UInt32} (h : Course size pc 0) :
    ¬ (pc + 2).toNat < size := by
  have hnext : (pc + 2).toNat = (pc.toNat + 2) % UInt32.size := UInt32.toNat_add pc 2
  rw [hnext]
  exact h.outside

/-! ## What decides a step -/

/-- What decides the steps of a session: the power, the registers, where memory
ends, and the listing. -/
structure Alike (s t : Session Simulator) : Prop where
  powered : s.engine.powered = t.engine.powered
  running : s.engine.running = t.engine.running
  registers : s.engine.registers = t.engine.registers
  size : s.engine.memory.size = t.engine.memory.size
  listing : s.listing = t.listing

variable {s : Session Simulator}

theorem Alike.afterStep {t : Session Simulator} (h : Alike s t) :
    Alike s.afterStep t.afterStep where
  powered := by rw [engine_afterStep, engine_afterStep]; exact h.powered
  running := by rw [engine_afterStep, engine_afterStep]; exact h.running
  registers := by simp only [engine_afterStep, Simulator.stepped, h.registers]
  size := by rw [engine_afterStep, engine_afterStep]; exact h.size
  listing := by rw [listing_afterStep, listing_afterStep]; exact h.listing

/-! ## All steps -/

/-- The line about a step to an address, for a listing and registers. -/
def lineAt (listing : Option Listing) (r : Registers) (pc : UInt32) : String :=
  stepLine { registers := { r with pc }, watches := [], line := listing.bind (·.lineFor pc) }

theorem stepsFrom_of_fail {error : SessionError} (h : s.step = s.fail error) (count : Nat)
    (seen : List String) :
    stepsFrom (count + 1) s seen =
      { lines := seen.reverse, failure := some (.ofSession error) } := by
  rw [stepsFrom, h]
  rfl

theorem stepsFrom_of_within (h : Ready s)
    (hwithin : (s.engine.registers.pc + 2).toNat < s.engine.memory.size) (count : Nat)
    (seen : List String) :
    stepsFrom (count + 1) s seen =
      stepsFrom count s.afterStep
        (lineAt s.listing s.engine.registers (s.engine.registers.pc + 2) :: seen) := by
  rw [stepsFrom, step_within h hwithin, view_afterStep]
  rfl

/-- Stepping prints a line for each step until one fails, and fails if that
comes before the steps are done. -/
theorem stepsFrom_eq {count steps : Nat} {seen : List String} (h : Ready s)
    (hcourse : Course s.engine.memory.size s.engine.registers.pc steps) :
    stepsFrom count s seen =
      { lines := seen.reverse ++ (List.range (min count steps)).map fun i =>
          lineAt s.listing s.engine.registers (counterAfter s.engine.registers.pc (i + 1))
        failure := if count ≤ steps then none else
          some (.ofSession (.engine (.invalidAddress
            (counterAfter s.engine.registers.pc (steps + 1))))) } := by
  induction count generalizing s steps seen with
  | zero => simp [stepsFrom]
  | succ count ih =>
    cases steps with
    | zero =>
      rw [stepsFrom_of_fail (step_beyond h hcourse.zero), counterAfter_one]
      simp
    | succ steps =>
      obtain ⟨hwithin, hrest⟩ := hcourse.succ
      rw [stepsFrom_of_within h hwithin]
      have hcourse' : Course s.afterStep.engine.memory.size
          s.afterStep.engine.registers.pc steps := by
        rw [engine_afterStep]
        exact hrest
      rw [ih h.afterStep hcourse', engine_afterStep, listing_afterStep,
        Nat.succ_min_succ, List.range_succ_eq_map, List.map_cons, List.map_map,
        List.reverse_cons, List.append_assoc]
      have hlater : ∀ i, counterAfter s.engine.registers.pc (i + 1 + 1) =
          counterAfter s.engine.stepped.registers.pc (i + 1) :=
        fun i => counterAfter_succ _ _
      simp only [Nat.zero_add, counterAfter_one, Function.comp_def, hlater,
        Nat.add_le_add_iff_right]
      rfl

/-- Sessions that are alike print the same when they step. -/
theorem stepsFrom_alike {t : Session Simulator} (h : Alike s t) (count : Nat)
    (seen : List String) : stepsFrom count s seen = stepsFrom count t seen := by
  -- Either both sessions take the step and are alike again, or both fail with one error.
  induction count generalizing s t seen with
  | zero => rfl
  | succ count ih =>
    have hpc : s.engine.registers.pc = t.engine.registers.pc := by rw [h.registers]
    by_cases hpowered : s.engine.powered = true
    · by_cases hrunning : s.engine.running = true
      · rw [stepsFrom_of_fail (step_running hpowered hrunning),
          stepsFrom_of_fail (step_running (h.powered ▸ hpowered) (h.running ▸ hrunning))]
      · have hs : Ready s := ⟨hpowered, by simpa using hrunning⟩
        have ht : Ready t := ⟨h.powered ▸ hpowered, h.running ▸ hs.idle⟩
        by_cases hwithin : (s.engine.registers.pc + 2).toNat < s.engine.memory.size
        · have hwithin' : (t.engine.registers.pc + 2).toNat < t.engine.memory.size := by
            rwa [← hpc, ← h.size]
          rw [stepsFrom_of_within hs hwithin, stepsFrom_of_within ht hwithin', h.registers,
            h.listing]
          exact ih h.afterStep _
        · have hbeyond : ¬ (t.engine.registers.pc + 2).toNat < t.engine.memory.size := by
            rwa [← hpc, ← h.size]
          rw [stepsFrom_of_fail (step_beyond hs hwithin),
            stepsFrom_of_fail (step_beyond ht hbeyond), hpc]
    · rw [stepsFrom_of_fail (step_off hpowered),
        stepsFrom_of_fail (step_off (h.powered ▸ hpowered))]

/-! ## The command -/

/-- Attaching a listing leaves the engine alone, and the listing is what can be
read at the path. -/
theorem attach_listing (s : Session Simulator) (files : FileSystem) (path : String) :
    (s.attach files path false).2.engine = s.engine ∧
      (s.attach files path false).2.listing = (Session.readListing files path).toOption := by
  unfold Session.attach
  cases Session.readListing files path <;> exact ⟨rfl, rfl⟩

/-- The line about a step shows the flags of a reset and the row of the
listing. -/
theorem lineAt_atEntry (listing : Option Listing) (entry stack pc : UInt32) :
    lineAt listing (.atEntry entry stack) pc = stepText pc (listing.bind (·.lineFor pc)) := by
  have hflags : Registers.flags { Registers.atEntry entry stack with pc } = "--S--210--------" := by
    have hstatus : ({ Registers.atEntry entry stack with pc } : Registers).sr = 0x2700 := rfl
    rw [Registers.flags, hstatus]
    decide
  have hlabel : ∀ line : Option UInt32, View.label
      { registers := { Registers.atEntry entry stack with pc }, watches := [], line } =
        (line.map fun row => Numeral.decimal row.toNat).getD "unknown" := by
    intro line
    cases line <;> rfl
  rw [lineAt, stepLine]
  simp only [hflags, hlabel, shownAddress, stepText]
  rw [← String.toList_inj]
  simp [toString]

/-- The session that steps: as it was opened, with the listing if one is
named. -/
def prepared (files : FileSystem) (listing? : Option String) (s : Session Simulator) :
    Session Simulator :=
  match listing? with
  | some path => (s.attach files path false).2
  | none => s

theorem engine_prepared (files : FileSystem) (listing? : Option String) (s : Session Simulator) :
    (prepared files listing? s).engine = s.engine := by
  cases listing? with
  | none => rfl
  | some path => exact (attach_listing s files path).1

theorem row_prepared (files : FileSystem) (listing? : Option String) {s : Session Simulator}
    (hlisting : s.listing = none) (pc : UInt32) :
    ((prepared files listing? s).listing.bind fun l => l.lineFor pc) = rowIn files listing? pc := by
  cases listing? with
  | none =>
    rw [prepared, hlisting]
    rfl
  | some path =>
    rw [prepared, (attach_listing s files path).2, rowIn, Option.bind_some, Session.readListing]
    cases files.openFile path with
    | error error => rfl
    | ok contents => exact Listing.lineFor_ofLines _ pc

theorem perform_step (files : FileSystem) (path? listing? : Option String) (image : String)
    (count : Nat) :
    perform files { settings := path?, command := .step image count listing? } =
      orFail (loadSettings files path?) fun settings =>
        orFail (openSession files settings image) fun s =>
          stepsFrom count (prepared files listing? s) [] :=
  rfl

/-- The report of a command whose settings and image can be loaded. -/
theorem perform_step_of_loadable {files : FileSystem} {path? : Option String} {image : String}
    {settings : Settings} {contents : Contents} (hconfigured : Configured files path? settings)
    (hloadable : Loadable files image contents) (count : Nat) (listing? : Option String) :
    ∃ entry steps,
      Image.EntryOf settings.base (contents.lines.filterMap Image.recordOf?) entry ∧
      Course 0x70000 entry.address steps ∧
      perform files { settings := path?, command := .step image count listing? } =
        { lines := (List.range (min count steps)).map fun i =>
            stepText (counterAfter entry.address (i + 1))
              (rowIn files listing? (counterAfter entry.address (i + 1)))
          failure := if count ≤ steps then none else
            some (.ofSession (.engine (.invalidAddress
              (counterAfter entry.address (steps + 1))))) } := by
  obtain ⟨entry, s, hopen, hopened⟩ := openSession_of_loadable hloadable settings
  have hengine := engine_prepared files listing? s
  have hprepared : Ready (prepared files listing? s) :=
    ⟨by rw [hengine, hopened.ready.powered], by rw [hengine, hopened.ready.idle]⟩
  obtain ⟨steps, hcourse⟩ := exists_course (by decide : 0x70000 + 2 < UInt32.size) entry.address
  refine ⟨entry, steps, hopened.entryOf, hcourse, ?_⟩
  rw [perform_step, loadSettings_ok_iff.2 hconfigured, orFail, hopen, orFail,
    stepsFrom_eq hprepared (by rw [hengine, hopened.size, hopened.registers]; exact hcourse),
    hengine, hopened.registers]
  simp only [lineAt_atEntry, row_prepared files listing? hopened.listing]
  rfl

/-- The report of a command whose settings or image cannot be loaded. -/
theorem perform_step_of_unloadable {files : FileSystem} {path? : Option String} {image : String}
    (h : ¬ ∃ settings contents, Configured files path? settings ∧ Loadable files image contents)
    (count : Nat) (listing? : Option String) :
    ∃ failure,
      perform files { settings := path?, command := .step image count listing? } =
        .failed failure := by
  rw [perform_step]
  cases hload : loadSettings files path? with
  | error failure => exact ⟨failure, rfl⟩
  | ok settings =>
    have himage : ¬ ∃ contents, Loadable files image contents := by
      rintro ⟨contents, hloadable⟩
      exact h ⟨settings, contents, loadSettings_ok_iff.1 hload, hloadable⟩
    obtain ⟨failure, hfailure⟩ := openSession_of_unloadable himage settings
    exact ⟨failure, by rw [orFail, hfailure]; rfl⟩

/-- Executing single steps prints a line for each step that stays in memory
and as many as are asked for, and fails exactly if more are asked for.  If
the settings or the image cannot be loaded, nothing is printed and the
command fails.  Whatever breakpoints are set, stepping prints the same. -/
theorem step_command (files : FileSystem) (path? listing? : Option String) (image : String)
    (count : Nat) :
    let report := perform files { settings := path?, command := .step image count listing? }
    report.written = none ∧
    (∀ settings contents, Configured files path? settings → Loadable files image contents →
      ∃ entry steps,
        Image.EntryOf settings.base (contents.lines.filterMap Image.recordOf?) entry ∧
        Course 0x70000 entry.address steps ∧
        report.lines = (List.range (min count steps)).map (fun i =>
          stepText (counterAfter entry.address (i + 1))
            (rowIn files listing? (counterAfter entry.address (i + 1)))) ∧
        (report.code ≠ 0 ↔ steps < count)) ∧
    ((¬ ∃ settings contents, Configured files path? settings ∧ Loadable files image contents) →
      report.lines = [] ∧ report.code ≠ 0) ∧
    ∀ (s : Session Simulator) slots breakpoints,
      stepsFrom count { s with engine := { s.engine with slots }, breakpoints } [] =
        stepsFrom count s [] := by
  intro report
  refine ⟨?_, ?_, ?_, ?_⟩
  · by_cases hloads : ∃ settings contents, Configured files path? settings ∧
        Loadable files image contents
    · obtain ⟨settings, contents, hconfigured, hloadable⟩ := hloads
      obtain ⟨entry, steps, -, -, hreport⟩ :=
        perform_step_of_loadable hconfigured hloadable count listing?
      exact congrArg Report.written hreport
    · obtain ⟨failure, hreport⟩ := perform_step_of_unloadable hloads count listing?
      exact congrArg Report.written hreport
  · intro settings contents hconfigured hloadable
    obtain ⟨entry, steps, hentry, hcourse, hreport⟩ :=
      perform_step_of_loadable hconfigured hloadable count listing?
    refine ⟨entry, steps, hentry, hcourse, congrArg Report.lines hreport, ?_⟩
    have hcode : report.code = if count ≤ steps then 0 else 1 := by
      refine (congrArg Report.code hreport).trans ?_
      rw [Report.code]
      split <;> rfl
    rw [hcode]
    split <;> omega
  · intro hloads
    obtain ⟨failure, hreport⟩ := perform_step_of_unloadable hloads count listing?
    have hcode : report.code = 1 := congrArg Report.code hreport
    exact ⟨congrArg Report.lines hreport, by omega⟩
  · intro s slots breakpoints
    have halike : Alike { s with engine := { s.engine with slots }, breakpoints } s :=
      ⟨rfl, rfl, rfl, rfl, rfl⟩
    exact stepsFrom_alike halike count []

/-- A program whose entry point is two steps below the end of memory, its
listing, and a file of settings. -/
def nearTheEnd : FileSystem where
  openFile
    | "a.h68" => .ok { bytes := encodeUtf8 "S80406FFFCFA\n".toList }
    | "a.lst" =>
      .ok { bytes := encodeUtf8 "00:0006FFFE 4E71 7: first\n00:0006FFFE 4E71 12: nop\n".toList }
    | "a.json" => .ok { bytes := encodeUtf8 "\x7b\x7d".toList }
    | _ => .error .notFound
  isFile _ := true
  obstacle _ := none

theorem step_nearTheEnd :
    let report := perform nearTheEnd
      { settings := some "a.json", command := .step "a.h68" 2 (some "a.lst") }
    report.lines = ["PC=0x0006FFFE SR=--S--210-------- line 12"] ∧ report.code ≠ 0 := by
  intro report
  have hconfigured : Configured nearTheEnd (some "a.json") {} := by
    refine .named ?_
    decide +kernel
  have hclean : ∀ line ∈ (Contents.lines { bytes := encodeUtf8 "S80406FFFCFA\n".toList }),
      Image.faultOf? 1 line = none := by decide +kernel
  have hloadable : Loadable nearTheEnd "a.h68" { bytes := encodeUtf8 "S80406FFFCFA\n".toList } :=
    ⟨rfl, fun line hline => (Image.faultOf?_eq_none_iff 1 line).1 (hclean line hline),
      by decide +kernel⟩
  obtain ⟨-, hloads, -⟩ := step_command nearTheEnd (some "a.json") (some "a.lst") "a.h68" 2
  obtain ⟨⟨address, explicit⟩, steps, hentry, hcourse, hlines, hcode⟩ :=
    hloads _ _ hconfigured hloadable
  dsimp only at hcourse hlines
  have hrecords : (Contents.lines { bytes := encodeUtf8 "S80406FFFCFA\n".toList }).filterMap
      Image.recordOf? = [.start 0x6fffc] := by decide +kernel
  obtain rfl : address = 0x6fffc := by
    rw [hrecords] at hentry
    cases hentry with
    | @named before _ _ split _ =>
      cases before with
      | nil => exact (SRecord.Record.start.inj (List.cons.inj split).1).symm
      | cons => exact absurd (List.cons.inj split).2 (by simp)
    | unnamed none => exact absurd (List.mem_singleton_self _) (none _)
  obtain rfl : steps = 1 := by
    have hfirst : steps ≠ 0 := by
      rintro rfl
      exact hcourse.outside (by decide)
    have hsecond : ¬ 2 ≤ steps := fun h => absurd (hcourse.inside 2 (by decide) h) (by decide)
    omega
  refine ⟨hlines.trans ?_, hcode.2 (by decide)⟩
  decide +kernel

end Monitor68.Command
