import Mathlib.Logic.Relation
import Monitor68.Proofs.Session.Request
import Monitor68.Proofs.Target.Slots

/-!
# Tracked breakpoints are those of the engine

A session tracks the breakpoints that it has set.  Three operations touch
them: to add one, to load an image, which clears all of them and may set
one, and to reset, which forgets them together with the engine that held
them.  Each of them may fail between the half that is for the engine and
the half that is for the list.

`Tracked` says that list and engine agree, and that the engines to come
have no breakpoints.  Whatever is asked of a session keeps that, whatever
the engine refuses, and so does everything else that may happen to it.
`tracked_breakpoints_of_evolves` is what the owner of a session gets from
it: the list is the engine's table, and a breakpoint that cannot be added
changes nothing.
-/

namespace Monitor68

open SRecord Slotted Relation

variable {ε : Type} [Engine ε] [Slotted ε]

/-! ## Loads -/

namespace Target

/-- The list of a target agrees with its engine. -/
def Tracked (t : Target ε) : Prop := t.breakpoints.Tracks (slots t.engine)

end Target

namespace TrackedBreakpoints

/-- To set a breakpoint in a list that agrees with its engine either fails,
since the engine refuses or all slots are taken, or it takes the next
slot on both sides. -/
theorem set_cases {t : TrackedBreakpoints} {e : ε} (h : t.Tracks (slots e)) (address : UInt32)
    (mask : AccessMask) :
    (∃ error, refusal e t.list.length address mask = some error ∧
      t.set e address mask = .error error) ∨
    (refusal e t.list.length address mask = none ∧ t.list.length = 16 ∧
      t.set e address mask = .error (.invalidBreakpointSlot 16)) ∨
    ∃ e', refusal e t.list.length address mask = none ∧ t.list.length < 16 ∧
      t.set e address mask = .ok ({ slot := t.list.length, address, mask },
        { list := t.list ++ [{ slot := t.list.length, address, mask }] }, e') ∧
      Tracks { list := t.list ++ [{ slot := t.list.length, address, mask }] } (slots e') := by
  have hle := h.length_le
  simp only [set, h.nextFreeSlot_eq]
  cases hrefusal : refusal e t.list.length address mask with
  | some error =>
    refine .inl ⟨error, rfl, ?_⟩
    rw [set_of_refusal hrefusal]
  | none =>
    by_cases hlt : t.list.length < 16
    · obtain ⟨e', hset, hslots⟩ := set_within hrefusal hlt
      refine .inr (.inr ⟨e', rfl, hlt, ?_, ?_⟩)
      · rw [hset]
      · rw [hslots]
        exact h.push hlt address mask
    · have hfull : t.list.length = 16 := by omega
      refine .inr (.inl ⟨rfl, hfull, ?_⟩)
      rw [set_beyond hrefusal (by omega), hfull]

end TrackedBreakpoints

namespace Image

/-- To place records leaves the slots alone, also where it fails. -/
theorem slots_place (e : ε) (records : List Record) : slots (place e records).1 = slots e := by
  induction records generalizing e with
  | nil => rfl
  | cons r rest ih =>
    cases r with
    | start address => exact ih e
    | data address payload =>
      have hslots := slots_writeBlock e address payload
      rw [place]
      generalize Engine.writeBlock e address payload = out at hslots
      obtain ⟨e', answer⟩ := out
      cases answer with
      | error error => exact hslots
      | ok _ =>
        simp only
        rw [ih, hslots]

/-- To enter a program begins with empty slots on both sides, so it leaves
both sides the same wherever it ends. -/
theorem tracked_enter (t : Target ε) (entry : EntryPoint) (stack : UInt32) :
    (enter t entry stack).1.Tracked := by
  have hcleared : TrackedBreakpoints.empty.Tracks (slots (Engine.clearBreakpoints t.engine)) := by
    rw [slots_clear]
    exact TrackedBreakpoints.tracks_blank
  have hguarded : ∀ guarded, guardEntry (ε := ε)
      { engine := Engine.clearBreakpoints t.engine, breakpoints := .empty } entry = .ok guarded →
      guarded.Tracked := by
    intro guarded hguard
    unfold guardEntry at hguard
    split at hguard
    · rcases TrackedBreakpoints.set_cases hcleared entry.address .supervisor with
        ⟨error, -, hset⟩ | ⟨-, -, hset⟩ | ⟨e', -, -, hset, htracks⟩
      · rw [hset] at hguard
        cases hguard
      · rw [hset] at hguard
        cases hguard
      · rw [hset] at hguard
        cases hguard
        exact htracks
    · cases hguard
      exact hcleared
  simp only [enter, TrackedBreakpoints.clear]
  cases hguard : guardEntry (ε := ε)
      { engine := Engine.clearBreakpoints t.engine, breakpoints := .empty } entry with
  | error error => exact hcleared
  | ok guarded =>
    have htracked := hguarded guarded hguard
    simp only
    cases hreset : Engine.reset guarded.engine entry.address stack with
    | error error => exact htracked
    | ok engine =>
      show guarded.breakpoints.Tracks (slots engine)
      rw [slots_reset hreset]
      exact htracked

/-- A load keeps both sides the same, at whatever stage it fails. -/
theorem tracked_load {t : Target ε} (h : t.Tracked) (base stack : UInt32)
    (lines : List (Except Files.FileError String)) : (load t base stack lines).1.Tracked := by
  unfold load
  cases records lines with
  | error error => exact h
  | ok records =>
    -- The records that were placed before a failure stay, and no slot has changed.
    have hslots := slots_place t.engine records
    simp only [install]
    generalize place t.engine records = placed at hslots
    obtain ⟨engine, answer⟩ := placed
    cases answer with
    | error error =>
      show t.breakpoints.Tracks (slots engine)
      rw [hslots]
      exact h
    | ok _ =>
      have hentered := tracked_enter { t with engine } (entryPoint base records) stack
      simp only
      generalize enter { t with engine } (entryPoint base records) stack = entered at hentered
      obtain ⟨t', answer⟩ := entered
      cases answer <;> exact hentered

end Image

/-! ## What keeps list and engine in step -/

namespace Session

open Files

/-- The breakpoints of a session are those of its engine, and the engines to
come have none. -/
structure Tracked (s : Session ε) : Prop where
  target : s.target.Tracked
  fresh : slots s.fresh = .blank

/-- What touches neither list nor slots keeps them in step. -/
theorem Tracked.of_slots {s s' : Session ε} (h : s.Tracked)
    (hbreakpoints : s'.breakpoints = s.breakpoints) (hslots : slots s'.engine = slots s.engine)
    (hfresh : s'.fresh = s.fresh) : s'.Tracked where
  target := by
    show s'.breakpoints.Tracks (slots s'.engine)
    rw [hbreakpoints, hslots]
    exact h.target
  fresh := by rw [hfresh]; exact h.fresh

theorem Tracked.fail {s : Session ε} (h : s.Tracked) {α : Type} (error : SessionError) :
    (s.fail error : Result ε α).2.Tracked :=
  h.of_slots rfl rfl rfl

theorem Tracked.enter {s : Session ε} (h : s.Tracked) (state : SessionState) :
    (s.enter state).Tracked := by
  obtain ⟨events, heq⟩ := s.enter_frame state
  rw [heq]
  exact h.of_slots rfl rfl rfl

theorem slots_of_poweredDown {before after : ε} (h : PoweredDown before after) :
    slots after = slots before := by
  rcases h with h | ⟨-, rfl⟩
  · exact slots_shutdown h
  · rfl

theorem tracked_startedOver {s : Session ε} (h : s.Tracked) : s.startedOver.Tracked := by
  have hengine : TrackedBreakpoints.empty.Tracks (slots s.fresh) := by
    rw [h.fresh]
    exact TrackedBreakpoints.tracks_blank
  have hempty : ({ s with
      polling := false, engine := s.fresh, breakpoints := .empty, listing := none } :
      Session ε).Tracked := ⟨hengine, h.fresh⟩
  exact hempty.enter .unloaded

theorem tracked_powerDownTo {s : Session ε} (h : s.Tracked) (state : SessionState) :
    (s.powerDownTo state).2.Tracked := by
  rcases powerDownTo_cases s state with ⟨error, -, hdown⟩ | ⟨engine, hengine, hdown⟩
  · rw [hdown]
    exact h.of_slots rfl rfl rfl
  · rw [hdown]
    have hdown : ({ s with polling := false, engine } : Session ε).Tracked :=
      h.of_slots rfl (slots_of_poweredDown hengine) rfl
    exact hdown.enter state

theorem tracked_reset {s : Session ε} (h : s.Tracked) : s.reset.2.Tracked := by
  rcases reset_cases s with ⟨error, -, hreset⟩ | ⟨-, hreset⟩
  · rw [hreset]
    exact h.of_slots rfl rfl rfl
  · rw [hreset]
    exact tracked_startedOver h

theorem tracked_loadImage {s : Session ε} (h : s.Tracked) (files : FileSystem) (path : String) :
    (s.loadImage files path).2.Tracked := by
  cases hopen : files.openFile path with
  | error error =>
    rw [loadImage_of_error s hopen]
    exact h.fail _
  | ok c =>
    have htarget : (s.onTarget
        (Image.load s.target s.settings.base s.settings.stack c.lines).1).Tracked :=
      ⟨Image.tracked_load h.target _ _ _, h.fresh⟩
    rcases loadImage_cases s hopen with ⟨error, -, hload⟩ | ⟨entry, -, hload⟩
    · rw [hload]
      exact htarget.fail _
    · rw [hload]
      have hloaded : (({ s.onTarget
          (Image.load s.target s.settings.base s.settings.stack c.lines).1 with
          listing := none } : Session ε).emit (.loaded entry.address)).Tracked :=
        htarget.of_slots rfl rfl rfl
      exact hloaded.enter .loaded

theorem tracked_load {s : Session ε} (h : s.Tracked) (files : FileSystem) (path : String) :
    (s.load files path).2.Tracked := by
  rcases load_cases s files path with ⟨-, hload⟩ | ⟨-, ⟨error, -, hload⟩ | ⟨-, hload⟩⟩
  · rw [hload]
    exact tracked_loadImage h files path
  · rw [hload]
    exact tracked_reset h
  · rw [hload]
    exact tracked_loadImage (tracked_reset h) files path

theorem tracked_attach {s : Session ε} (h : s.Tracked) (files : FileSystem) (path : String)
    (importing : Bool) : (s.attach files path importing).2.Tracked := by
  obtain ⟨watches, listing, events, hattach⟩ := attach_frame s files path importing
  rw [hattach]
  exact h.of_slots rfl rfl rfl

theorem tracked_openSource {s : Session ε} (h : s.Tracked) (files : FileSystem)
    (source : String) (importing : Bool) : (s.openSource files source importing).2.Tracked := by
  rcases openSource_cases s files source importing with ⟨-, hopen⟩ | ⟨image, -, hopen⟩
  · rw [hopen]
    exact h.fail _
  · have hload := tracked_load h files image
    rcases hopen with ⟨error, s', heq, hopen⟩ | ⟨entry, s', heq, hopen⟩
    · rw [heq] at hload
      rw [hopen]
      exact hload
    · rw [heq] at hload
      rw [hopen]
      exact tracked_attach hload files _ importing

theorem tracked_step {s : Session ε} (h : s.Tracked) : s.step.2.Tracked := by
  rcases step_cases s with ⟨error, hstep⟩ | ⟨engine, -, -, hone, hstep⟩
  · rw [hstep]
    exact h.fail _
  · rw [hstep]
    have hengine : ({ s with engine } : Session ε).Tracked :=
      h.of_slots rfl (slots_stepOne hone) rfl
    exact (hengine.enter .stepping).of_slots rfl rfl rfl

theorem tracked_run {s : Session ε} (h : s.Tracked) : s.run.2.Tracked := by
  rcases run_cases s with ⟨error, hrun⟩ | ⟨-, -, hrun⟩ | ⟨engine, -, -, hone, hrun⟩
  · rw [hrun]
    exact h.fail _
  · rw [hrun]
    exact h
  · rw [hrun]
    have hengine : ({ s with engine } : Session ε).Tracked :=
      h.of_slots rfl (slots_run hone) rfl
    exact (hengine.enter .running).of_slots rfl rfl rfl

/-- How a session with breakpoints in step answers to a request for another
one, and what it is afterwards.  A breakpoint that cannot be added changes
neither side. -/
theorem addBreakpoint_of_tracked {s : Session ε} (h : s.Tracked) (address : UInt32) :
    let n := s.breakpoints.list.length
    let b : Breakpoint := { slot := n, address, mask := .supervisor }
    (∃ error, refusal s.engine n address .supervisor = some error ∧
      s.addBreakpoint address = s.fail (.engine error)) ∨
    (refusal s.engine n address .supervisor = none ∧ n = 16 ∧
      s.addBreakpoint address = s.fail (.engine (.invalidBreakpointSlot 16))) ∨
    ∃ engine, refusal s.engine n address .supervisor = none ∧ n < 16 ∧
      s.addBreakpoint address =
        (.ok b, { s with engine, breakpoints := { list := s.breakpoints.list ++ [b] } }) ∧
      TrackedBreakpoints.Tracks { list := s.breakpoints.list ++ [b] } (slots engine) := by
  intro n b
  unfold addBreakpoint
  rcases TrackedBreakpoints.set_cases h.target address .supervisor with
    ⟨error, hrefusal, hset⟩ | ⟨hrefusal, hfull, hset⟩ | ⟨engine, hrefusal, hlt, hset, htracks⟩
  · refine .inl ⟨error, hrefusal, ?_⟩
    have hset' : s.breakpoints.set s.engine address .supervisor = .error error := hset
    rw [hset']
  · refine .inr (.inl ⟨hrefusal, hfull, ?_⟩)
    have hset' : s.breakpoints.set s.engine address .supervisor =
        .error (.invalidBreakpointSlot 16) := hset
    rw [hset']
  · refine .inr (.inr ⟨engine, hrefusal, hlt, ?_, htracks⟩)
    have hset' : s.breakpoints.set s.engine address .supervisor =
        .ok (b, { list := s.breakpoints.list ++ [b] }, engine) := hset
    rw [hset']

theorem tracked_addBreakpoint {s : Session ε} (h : s.Tracked) (address : UInt32) :
    (s.addBreakpoint address).2.Tracked := by
  rcases addBreakpoint_of_tracked h address with
    ⟨error, -, hadd⟩ | ⟨-, -, hadd⟩ | ⟨engine, -, -, hadd, htracks⟩
  · rw [hadd]
    exact h.fail _
  · rw [hadd]
    exact h.fail _
  · rw [hadd]
    exact ⟨htracks, h.fresh⟩

/-- Whatever is asked of a session keeps its breakpoints those of the
engine. -/
theorem tracked_perform {s : Session ε} (h : s.Tracked) (request : Request) :
    (request.perform s).2.Tracked := by
  cases request with
  | load files path => exact tracked_load h files path
  | openSource files source importing => exact tracked_openSource h files source importing
  | attach files path importing => exact tracked_attach h files path importing
  | step => exact tracked_step h
  | run => exact tracked_run h
  | stop =>
    show s.stop.2.Tracked
    rw [stop_eq]
    exact tracked_powerDownTo h .halted
  | powerOff =>
    show s.powerOff.2.Tracked
    rw [powerOff_eq]
    exact tracked_powerDownTo h .poweredOff
  | reset => exact tracked_reset h
  | addBreakpoint address => exact tracked_addBreakpoint h address
  | editWatches edit => exact h.of_slots rfl rfl rfl
  | refreshWatches => exact h.of_slots rfl rfl rfl

/-! ## Histories -/

/-- One thing that can happen to a session: its owner asks for something,
the polling task has its turn, the engine moves by itself or changes what
it refuses, or other engines without breakpoints are to be made from now
on. -/
inductive Evolves : Session ε → Session ε → Prop where
  | asked {s : Session ε} (request : Request) : Evolves s (request.perform s).2
  | poll {s : Session ε} : Evolves s s.poll
  | engine {s : Session ε} {engine : ε} (h : slots engine = slots s.engine) :
      Evolves s { s with engine }
  | supplied {s : Session ε} {fresh : ε} (h : slots fresh = .blank) :
      Evolves s { s with fresh }

theorem tracked_new (settings : Settings) {fresh : ε} (h : slots fresh = .blank) :
    (Session.new settings fresh).Tracked := by
  refine ⟨?_, h⟩
  show TrackedBreakpoints.empty.Tracks (slots fresh)
  rw [h]
  exact TrackedBreakpoints.tracks_blank

/-- The step lemma. -/
theorem Evolves.tracked {s s' : Session ε} (hstep : Evolves s s') (h : s.Tracked) :
    s'.Tracked := by
  cases hstep with
  | asked request => exact tracked_perform h request
  | poll =>
    obtain ⟨state, watches, polling, events, hpoll⟩ := s.poll_frame
    rw [hpoll]
    exact h.of_slots rfl rfl rfl
  | engine hslots => exact h.of_slots rfl hslots rfl
  | supplied hfresh => exact ⟨h.target, hfresh⟩

/-- The run lemma. -/
theorem tracked_of_evolves {settings : Settings} {fresh : ε} (hfresh : slots fresh = .blank)
    {s : Session ε} (h : ReflTransGen Evolves (Session.new settings fresh) s) : s.Tracked := by
  induction h with
  | refl => exact tracked_new settings hfresh
  | tail _ hstep ih => exact hstep.tracked ih

/-- Whatever has happened to a session on an engine that began without
breakpoints, the list that is tracked is the table of the engine.  The
slots in use are the first ones, in the order of the list, and the next
free slot is the first one behind them.

A breakpoint is added unless the engine refuses or all sixteen slots are
taken.  If it is not, the session is as it was, apart from the event that
says why. -/
theorem tracked_breakpoints_of_evolves {settings : Settings} {fresh : ε}
    (hfresh : slots fresh = .blank) {s : Session ε}
    (h : ReflTransGen Evolves (Session.new settings fresh) s) :
    let n := s.breakpoints.list.length
    s.breakpoints.list = SlotTable.breakpoints (slots s.engine) ∧
    s.breakpoints.list.map (·.slot) = List.range n ∧ n ≤ 16 ∧
    s.breakpoints.nextFreeSlot = n ∧
    (∀ slot, s.breakpoints.isFree slot = true ↔ n ≤ slot) ∧
    ∀ address,
      (s.addBreakpoint address).1 =
        (match refusal s.engine n address .supervisor with
        | some error => .error (.engine error)
        | none =>
          if n < 16 then .ok { slot := n, address, mask := .supervisor }
          else .error (.engine (.invalidBreakpointSlot 16))) ∧
      ∀ error, (s.addBreakpoint address).1 = .error error →
        (s.addBreakpoint address).2 = s.emit (.error error.message) := by
  intro n
  have htracked := tracked_of_evolves hfresh h
  have htracks : s.breakpoints.Tracks (slots s.engine) := htracked.target
  refine ⟨htracks.breakpoints_eq.symm, htracks.numbered, htracks.length_le,
    htracks.nextFreeSlot_eq, htracks.isFree_iff, ?_⟩
  intro address
  rcases addBreakpoint_of_tracked htracked address with
    ⟨error, hrefusal, hadd⟩ | ⟨hrefusal, hfull, hadd⟩ | ⟨engine, hrefusal, hlt, hadd, -⟩
  · rw [hrefusal, hadd]
    refine ⟨rfl, ?_⟩
    intro error' herror
    cases herror
    rfl
  · have hnot : ¬ n < 16 := by omega
    rw [hrefusal, hadd]
    refine ⟨(if_neg hnot).symm, ?_⟩
    intro error' herror
    cases herror
    rfl
  · rw [hrefusal, hadd]
    refine ⟨(if_pos hlt).symm, ?_⟩
    intro error' herror
    cases herror

/-- Requests are a history. -/
theorem evolves_of_requests (s : Session ε) (requests : List Request) :
    ReflTransGen Evolves s (requests.foldl (fun s request => (request.perform s).2) s) := by
  induction requests generalizing s with
  | nil => exact .refl
  | cons request rest ih => exact .head (.asked request) (ih _)

/-! ## A full table -/

/-- An engine without breakpoints that refuses to take one. -/
def unwilling : Restricted Simulator := { inner := .blank 16, refused := [.setBreakpoint] }

/-- A session whose engine has refused a breakpoint and does not refuse
any longer. -/
def willing : Session (Restricted Simulator) :=
  { (Request.perform (.new {} unwilling) (.addBreakpoint 2)).2 with
    engine := { unwilling with refused := [] } }

/-- Sixteen breakpoints, all at one address. -/
def sixteen : List Request := List.replicate 16 (.addBreakpoint 4)

/-- The session with all slots taken. -/
def fullTable : Session (Restricted Simulator) :=
  sixteen.foldl (fun s request => (request.perform s).2) willing

theorem full_table_is_tracked :
    fullTable.breakpoints.list = fullTable.engine.inner.breakpoints ∧
    fullTable.breakpoints.list.map (·.slot) = List.range 16 ∧
    (fullTable.addBreakpoint 6).1 = .error (.engine (.invalidBreakpointSlot 16)) ∧
    (fullTable.addBreakpoint 6).2 =
      fullTable.emit (.error "breakpoint slot 16 is out of range") := by
  have hwilling : ReflTransGen Evolves (Session.new {} unwilling) willing :=
    .tail (.single (.asked (.addBreakpoint 2))) (.engine rfl)
  have hfull : ReflTransGen Evolves (Session.new {} unwilling) fullTable :=
    hwilling.trans (evolves_of_requests willing sixteen)
  obtain ⟨hlist, hslots, -, -, -, hadd⟩ := tracked_breakpoints_of_evolves rfl hfull
  have hlength : fullTable.breakpoints.list.length = 16 := by decide +kernel
  have hwould : refusal fullTable.engine 16 6 .supervisor = none := by decide +kernel
  obtain ⟨hanswer, hunchanged⟩ := hadd 6
  rw [hlength, hwould, if_neg (by decide)] at hanswer
  rw [hlength] at hslots
  have hmessage : (SessionError.engine (.invalidBreakpointSlot 16)).message =
      "breakpoint slot 16 is out of range" := by decide +kernel
  have hevent := hunchanged _ hanswer
  rw [hmessage] at hevent
  exact ⟨hlist.trans (SlotTable.breakpoints_slots _), hslots, hanswer, hevent⟩

end Session

end Monitor68
