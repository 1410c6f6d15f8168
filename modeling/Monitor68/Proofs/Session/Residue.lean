import Monitor68.Proofs.Image.Load
import Monitor68.Proofs.Session.Request

/-!
# What earlier loads leave in memory

The memory of a session is blank when the engine is made, and nothing but
loads writes to it.  A load starts over with a fresh engine if the session
has a program.  It does not if the session is unloaded, and an unloaded
session may have gone through loads that failed halfway: what they placed
is still there.

`Happening` is one thing that can happen to a session, and a history is a
list of such things in any order.  `residueOf` follows a history and keeps
the records that were placed since the engine was made, and
`residue_after` shows that memory holds these records and nothing else.

`memory_of_load` is the consequence for a load that succeeds.  Memory
holds the image, and the residue shows through wherever the image does
not cover it.  So the program that was loaded is free of bytes of other
loads exactly if the residue outside of the image is zero, and
`load_over_failed_load` is a history in which it is not.
-/

namespace Monitor68.Session

open Files SRecord

/-! ## Histories -/

/-- What can happen to a session on a simulator: its owner asks for
something, the engine executes for one turn, the polling task has its turn,
or the simulators to be made from now on are of another size. -/
inductive Happening where
  | asked (request : Request)
  | turn
  | poll
  | supplied (size : Nat)

/-- The session after something has happened. -/
def Happening.apply (s : Session Simulator) : Happening → Session Simulator
  | .asked request => (request.perform s).2
  | .turn => { s with engine := s.engine.turn }
  | .poll => s.poll
  | .supplied size => { s with fresh := .blank size }

/-- The session after a history. -/
def after (s : Session Simulator) (history : List Happening) : Session Simulator :=
  history.foldl Happening.apply s

/-- The session that a load works on: one with a program starts over. -/
def readied (s : Session Simulator) : Session Simulator :=
  if s.state = .unloaded then s else s.startedOver

/-- The records in memory after a load of the file at a path, given those
in memory before. -/
def residueOfLoad (s : Session Simulator) (residue : List Record) (files : FileSystem)
    (path : String) : List Record :=
  let kept := if s.state = .unloaded then residue else []
  match files.openFile path with
  | .error _ => kept
  | .ok c => kept ++ Image.placed s.readied.engine.memory.size c.lines

/-- The records in memory after something has happened. -/
def Happening.residue (s : Session Simulator) (residue : List Record) :
    Happening → List Record
  | .asked (.load files path) => s.residueOfLoad residue files path
  | .asked (.openSource files source _) =>
    match companion files source imageExtensions with
    | none => residue
    | some image => s.residueOfLoad residue files image
  | .asked .reset => []
  | _ => residue

/-- The records placed since the engine was made, after a history. -/
def residueOf (s : Session Simulator) (residue : List Record) : List Happening → List Record
  | [] => residue
  | h :: rest => residueOf (h.apply s) (h.residue s residue) rest

/-! ## The invariant -/

/-- Memory holds the given records and is blank otherwise, and so are the
engines to come. -/
structure Holds (s : Session Simulator) (residue : List Record) : Prop where
  memory : s.engine.memory = Image.deposit (.blank s.engine.memory.size) residue
  fits : ∀ r ∈ residue, Image.Fits s.engine.memory.size r
  fresh : ∃ size, s.fresh = .blank size

/-- What does not touch the memory keeps the invariant. -/
theorem Holds.of_memory {s s' : Session Simulator} {residue : List Record}
    (h : s.Holds residue) (hmemory : s'.engine.memory = s.engine.memory)
    (hfresh : s'.fresh = s.fresh) : s'.Holds residue where
  memory := by rw [hmemory]; exact h.memory
  fits := by rw [hmemory]; exact h.fits
  fresh := by rw [hfresh]; exact h.fresh

/-- A fresh engine holds nothing. -/
theorem holds_of_blank {s : Session Simulator} (size : Nat)
    (hengine : s.engine = .blank size) (hfresh : ∃ size, s.fresh = .blank size) :
    s.Holds [] where
  memory := by rw [hengine]; rfl
  fits := by simp
  fresh := hfresh

/-- What a session holds says what memory is at every address. -/
theorem Holds.cell?_eq {s : Session Simulator} {residue : List Record} (h : s.Holds residue)
    {address : Nat} (hlt : address < s.engine.memory.size) :
    s.engine.memory.cell? address = some ((Image.lastByte? residue address).getD 0) := by
  rw [h.memory, Image.cell?_deposit (.blank s.engine.memory.size) _ h.fits, Memory.cell?_blank,
    if_pos hlt]
  cases Image.lastByte? residue address <;> rfl

/-- Beyond memory it holds nothing. -/
theorem Holds.lastByte?_eq_none {s : Session Simulator} {residue : List Record}
    (h : s.Holds residue) {address : Nat} (hle : ¬ address < s.engine.memory.size) :
    Image.lastByte? residue address = none := by
  cases hlast : Image.lastByte? residue address with
  | none => rfl
  | some b => exact absurd (Image.lt_size_of_lastByte? h.fits hlast) hle

/-! ## Simulators -/

theorem memory_of_poweredDown {before after : Simulator} (h : PoweredDown before after) :
    after.memory = before.memory := by
  rcases h with h | ⟨-, rfl⟩
  · have h' : Simulator.shutdown before = .ok after := h
    unfold Simulator.shutdown at h'
    split at h' <;> cases h'
    rfl
  · rfl

theorem memory_of_stepOne {before after : Simulator} (h : before.stepOne = .ok after) :
    after.memory = before.memory := by
  unfold Simulator.stepOne at h
  split at h
  · simp only at h
    split at h <;> cases h
    rfl
  · cases h

theorem memory_of_run {before after : Simulator} (h : before.run = .ok after) :
    after.memory = before.memory := by
  unfold Simulator.run at h
  split at h <;> cases h
  rfl

theorem memory_of_setBreakpoint {before after : Simulator} {slot : Nat} {address : UInt32}
    {mask : AccessMask} (h : before.setBreakpoint slot address mask = .ok after) :
    after.memory = before.memory := by
  unfold Simulator.setBreakpoint at h
  split at h <;> cases h
  rfl

theorem memory_turn (e : Simulator) : e.turn.memory = e.memory := by
  unfold Simulator.turn
  split
  · cases h : e.stepOne with
    | error error => rfl
    | ok t =>
      have ht := memory_of_stepOne h
      simp only
      split <;> exact ht
  · rfl

/-- A simulator never refuses to be powered down. -/
theorem not_refuses (e : Simulator) (error : EngineError) : ¬ Refuses e error := by
  intro hrefuse
  obtain ⟨h, hne⟩ := hrefuse
  have h' : Simulator.shutdown e = .error error := h
  unfold Simulator.shutdown at h'
  split at h' <;> cases h'
  exact hne rfl

theorem reset_simulator (s : Session Simulator) : s.reset = (.ok (), s.startedOver) := by
  rcases reset_cases s with ⟨error, hrefuse, -⟩ | ⟨-, h⟩
  · exact absurd hrefuse (not_refuses s.engine error)
  · exact h

/-- A load on simulators is that of the session made ready for it. -/
theorem load_simulator (s : Session Simulator) (files : FileSystem) (path : String) :
    s.load files path = s.readied.loadImage files path := by
  unfold load readied
  split
  · rfl
  · rw [reset_simulator]

/-! ## One step of a history -/

theorem holds_startedOver {s : Session Simulator} {residue : List Record} (h : s.Holds residue) :
    s.startedOver.Holds [] := by
  obtain ⟨size, hsize⟩ := h.fresh
  exact holds_of_blank size (by simp [startedOver, hsize]) ⟨size, by simp [startedOver, hsize]⟩

/-- A session made ready for a load keeps what it holds only if it has no
program. -/
theorem holds_readied {s : Session Simulator} {residue : List Record} (h : s.Holds residue) :
    s.readied.Holds (if s.state = .unloaded then residue else []) := by
  unfold readied
  split
  · exact h
  · exact holds_startedOver h

/-- What a load has left holds the records it placed besides those that
were there. -/
theorem holds_onTarget {s : Session Simulator} {residue : List Record} (h : s.Holds residue)
    (lines : List (Except FileError String)) :
    (s.onTarget (Image.load s.target s.settings.base s.settings.stack lines).1).Holds
      (residue ++ Image.placed s.engine.memory.size lines) := by
  have hmemory := Image.memory_load s.target s.settings.base s.settings.stack lines
  have hsize : (s.onTarget
      (Image.load s.target s.settings.base s.settings.stack lines).1).engine.memory.size =
      s.engine.memory.size := by
    have := congrArg Memory.size hmemory
    rwa [Image.size_deposit] at this
  constructor
  · rw [hsize, Image.deposit_append, ← h.memory]
    exact hmemory
  · intro r hr
    rw [hsize]
    rcases List.mem_append.1 hr with hr | hr
    · exact h.fits r hr
    · exact Image.fits_of_mem_placed hr
  · exact h.fresh

theorem holds_load {s : Session Simulator} {residue : List Record} (h : s.Holds residue)
    (files : FileSystem) (path : String) :
    (s.load files path).2.Holds (s.residueOfLoad residue files path) := by
  rw [load_simulator, residueOfLoad]
  have hready := holds_readied h
  cases hopen : files.openFile path with
  | error error =>
    rw [loadImage_of_error _ hopen]
    exact hready.of_memory rfl rfl
  | ok c =>
    have htarget := holds_onTarget hready c.lines
    rcases loadImage_cases s.readied hopen with ⟨error, -, hload⟩ | ⟨entry, -, hload⟩
    · rw [hload]
      exact htarget.of_memory rfl rfl
    · rw [hload]
      refine htarget.of_memory ?_ ?_
      · rw [engine_enter]
        rfl
      · rw [fresh_enter]
        rfl

theorem holds_powerDownTo {s : Session Simulator} {residue : List Record} (h : s.Holds residue)
    (state : SessionState) : (s.powerDownTo state).2.Holds residue := by
  rcases powerDownTo_cases s state with ⟨error, -, hdown⟩ | ⟨engine, hengine, hdown⟩
  · rw [hdown]
    exact h.of_memory rfl rfl
  · rw [hdown]
    have hmemory : engine.memory = s.engine.memory := memory_of_poweredDown hengine
    exact h.of_memory (by simp [hmemory]) (by simp)

theorem holds_attach {s : Session Simulator} {residue : List Record} (h : s.Holds residue)
    (files : FileSystem) (path : String) (importing : Bool) :
    (s.attach files path importing).2.Holds residue := by
  obtain ⟨watches, listing, events, hattach⟩ := attach_frame s files path importing
  rw [hattach]
  exact h.of_memory rfl rfl

theorem holds_openSource {s : Session Simulator} {residue : List Record} (h : s.Holds residue)
    (files : FileSystem) (source : String) (importing : Bool) :
    (s.openSource files source importing).2.Holds
      ((Happening.asked (.openSource files source importing)).residue s residue) := by
  rw [Happening.residue]
  rcases openSource_cases s files source importing with ⟨hnone, hopen⟩ | ⟨image, hsome, hopen⟩
  · rw [hopen, hnone]
    exact h.of_memory rfl rfl
  · have hload := holds_load h files image
    rw [hsome]
    rcases hopen with ⟨error, s', heq, hopen⟩ | ⟨entry, s', heq, hopen⟩
    · rw [heq] at hload
      rw [hopen]
      exact hload
    · rw [heq] at hload
      rw [hopen]
      exact holds_attach hload files _ importing

theorem holds_step {s : Session Simulator} {residue : List Record} (h : s.Holds residue) :
    s.step.2.Holds residue := by
  rcases step_cases s with ⟨error, hstep⟩ | ⟨engine, -, -, hone, hstep⟩
  · rw [hstep]
    exact h.of_memory rfl rfl
  · rw [hstep]
    have hmemory : engine.memory = s.engine.memory := memory_of_stepOne hone
    exact h.of_memory (by simp [Session.refreshWatches, hmemory])
      (by simp [Session.refreshWatches])

theorem holds_run {s : Session Simulator} {residue : List Record} (h : s.Holds residue) :
    s.run.2.Holds residue := by
  rcases run_cases s with ⟨error, hrun⟩ | ⟨-, -, hrun⟩ | ⟨engine, -, -, hone, hrun⟩
  · rw [hrun]
    exact h.of_memory rfl rfl
  · rw [hrun]
    exact h
  · rw [hrun]
    have hmemory : engine.memory = s.engine.memory := memory_of_run hone
    exact h.of_memory (by simp [hmemory]) (by simp)

theorem holds_addBreakpoint {s : Session Simulator} {residue : List Record}
    (h : s.Holds residue) (address : UInt32) : (s.addBreakpoint address).2.Holds residue := by
  rcases addBreakpoint_cases s address with ⟨error, hset⟩ | ⟨engine, hone, hset⟩
  · rw [hset]
    exact h.of_memory rfl rfl
  · rw [hset]
    exact h.of_memory (memory_of_setBreakpoint hone) rfl

/-- What is asked of a session changes memory only by a load or a reset. -/
theorem holds_perform {s : Session Simulator} {residue : List Record} (h : s.Holds residue)
    (request : Request) :
    (request.perform s).2.Holds ((Happening.asked request).residue s residue) := by
  cases request with
  | load files path => exact holds_load h files path
  | openSource files source importing => exact holds_openSource h files source importing
  | attach files path importing => exact holds_attach h files path importing
  | step => exact holds_step h
  | run => exact holds_run h
  | stop =>
    show s.stop.2.Holds residue
    rw [stop_eq]
    exact holds_powerDownTo h .halted
  | powerOff =>
    show s.powerOff.2.Holds residue
    rw [powerOff_eq]
    exact holds_powerDownTo h .poweredOff
  | reset =>
    show s.reset.2.Holds []
    rw [reset_simulator]
    exact holds_startedOver h
  | addBreakpoint address => exact holds_addBreakpoint h address
  | editWatches edit => exact h.of_memory rfl rfl
  | refreshWatches => exact h.of_memory rfl rfl

/-- Whatever happens to a session, memory holds the records that were
placed since the engine was made. -/
theorem holds_apply {s : Session Simulator} {residue : List Record} (h : s.Holds residue)
    (happening : Happening) :
    (happening.apply s).Holds (happening.residue s residue) := by
  cases happening with
  | turn => exact h.of_memory (memory_turn s.engine) rfl
  | poll =>
    obtain ⟨state, watches, polling, events, hpoll⟩ := s.poll_frame
    exact h.of_memory (by rw [Happening.apply, hpoll]) (by rw [Happening.apply, hpoll])
  | supplied size => exact ⟨h.memory, h.fits, size, rfl⟩
  | asked request => exact holds_perform h request

/-- The run lemma: a history leads from what a session holds to what
`residueOf` says. -/
theorem residue_after {s : Session Simulator} {residue : List Record} (h : s.Holds residue)
    (history : List Happening) : (s.after history).Holds (s.residueOf residue history) := by
  induction history generalizing s residue with
  | nil => exact h
  | cons happening rest ih => exact ih (holds_apply h happening)

theorem holds_new (settings : Settings) (size : Nat) :
    (Session.new settings (Simulator.blank size)).Holds [] :=
  holds_of_blank size rfl ⟨size, rfl⟩

/-! ## A load that succeeds -/

/-- The records under the image that a session is about to load. -/
def residueUnder (settings : Settings) (size : Nat) (history : List Happening) :
    List Record :=
  let s := Session.new settings (Simulator.blank size)
  if (s.after history).state = .unloaded then s.residueOf [] history else []

/-- A load that succeeds has placed all records of the image. -/
theorem holds_loadImage {s s' : Session Simulator} {residue : List Record}
    (hs : s.Holds residue) {files : FileSystem} {path : String} {c : Contents}
    (hopen : files.openFile path = .ok c) {entry : EntryPoint}
    (h : s.loadImage files path = (.ok entry, s')) :
    s'.Holds (residue ++ c.lines.filterMap Image.recordOf?) := by
  rcases loadImage_cases s hopen with ⟨error, -, hload⟩ | ⟨entry', hout, hload⟩
  · rw [hload] at h
    cases h
  · have hholds := holds_onTarget hs c.lines
    obtain ⟨hsound, hfits⟩ := (Image.load_ok_iff _ _ _ _).1 ⟨entry', hout⟩
    have hplaced : Image.placed s.engine.memory.size c.lines =
        c.lines.filterMap Image.recordOf? := Image.placed_of_sound hsound hfits
    rw [hplaced] at hholds
    rw [hload] at h
    cases h
    exact hholds.of_memory (by simp [emit]) (by simp [emit])

/-- A byte put before another one hides it if there is one; else the other
one has to be zero. -/
theorem getD_or_eq_iff (above under : Option UInt8) :
    (above.or under).getD 0 = above.getD 0 ↔ (above = none → under.getD 0 = 0) := by
  cases above <;> simp

/-- A load that succeeds leaves in memory, at every address, the byte of the
last record of its image that covers the address, and else what is under
the image.  So memory is that of the image alone exactly if everything
under it is zero where no record covers it. -/
theorem memory_of_load (settings : Settings) (size : Nat) (history : List Happening)
    (files : FileSystem) (path : String) {entry : EntryPoint} {s' : Session Simulator}
    (h : ((Session.new settings (Simulator.blank size)).after history).load files path =
      (.ok entry, s')) :
    ∃ c, files.openFile path = .ok c ∧
      let records := c.lines.filterMap Image.recordOf?
      let under := residueUnder settings size history
      (∀ address < s'.engine.memory.size,
        s'.engine.memory.cell? address =
          some (((Image.lastByte? records address).or
            (Image.lastByte? under address)).getD 0)) ∧
      ((∀ address < s'.engine.memory.size,
        s'.engine.memory.cell? address =
          some ((Image.lastByte? records address).getD 0)) ↔
        ∀ address, Image.lastByte? records address = none →
          (Image.lastByte? under address).getD 0 = 0) := by
  set s := (Session.new settings (Simulator.blank size)).after history with hs
  have hready : s.readied.Holds (residueUnder settings size history) :=
    holds_readied (residue_after (holds_new settings size) history)
  rw [load_simulator] at h
  cases hopen : files.openFile path with
  | error error =>
    rw [loadImage_of_error _ hopen] at h
    cases h
  | ok c =>
    refine ⟨c, rfl, ?_⟩
    intro records under
    have hholds : s'.Holds (under ++ records) := holds_loadImage hready hopen h
    have hcell : ∀ address < s'.engine.memory.size,
        s'.engine.memory.cell? address =
          some (((Image.lastByte? records address).or
            (Image.lastByte? under address)).getD 0) := by
      intro address hlt
      rw [hholds.cell?_eq hlt, Image.lastByte?_append]
    have halone : ∀ address < s'.engine.memory.size,
        (s'.engine.memory.cell? address = some ((Image.lastByte? records address).getD 0) ↔
          (Image.lastByte? records address = none →
            (Image.lastByte? under address).getD 0 = 0)) := by
      intro address hlt
      rw [hcell address hlt, Option.some.injEq, getD_or_eq_iff]
    refine ⟨hcell, ?_, fun hclean address hlt => (halone address hlt).2 (hclean address)⟩
    intro hclean address hnone
    by_cases hlt : address < s'.engine.memory.size
    · exact (halone address hlt).1 (hclean address hlt) hnone
    · have hbeyond := hholds.lastByte?_eq_none hlt
      rw [Image.lastByte?_append, hnone, Option.none_or] at hbeyond
      rw [hbeyond]
      rfl

/-! ## A load over a failed one -/

/-- Two images for a memory of sixteen bytes.  Of the first one, a record
for address 0 fits and the next record does not; the other has one record,
for address 1. -/
def halfAndNext : FileSystem where
  openFile path :=
    if path = "half" then .ok { bytes := Text.encodeUtf8 "S1040000AA00\nS10400FFBB00\n".toList }
    else .ok { bytes := Text.encodeUtf8 "S1040001CC00\n".toList }
  isFile _ := true
  obstacle _ := none

/-- The load of the other image after the one that failed. -/
def loadedOver : Result Simulator EntryPoint :=
  ((Session.new {} (Simulator.blank 16)).after [.asked (.load halfAndNext "half")]).load
    halfAndNext "next"

theorem memory_of_load_next :
    loadedOver = (.ok { address := 0x8000, explicit := false }, loadedOver.2) ∧
    ∃ c, halfAndNext.openFile "next" = .ok c ∧
      let records := c.lines.filterMap Image.recordOf?
      let under := residueUnder {} 16 [.asked (.load halfAndNext "half")]
      (∀ address < loadedOver.2.engine.memory.size,
        loadedOver.2.engine.memory.cell? address =
          some (((Image.lastByte? records address).or
            (Image.lastByte? under address)).getD 0)) ∧
      ((∀ address < loadedOver.2.engine.memory.size,
        loadedOver.2.engine.memory.cell? address =
          some ((Image.lastByte? records address).getD 0)) ↔
        ∀ address, Image.lastByte? records address = none →
          (Image.lastByte? under address).getD 0 = 0) := by
  have h : loadedOver = (.ok { address := 0x8000, explicit := false }, loadedOver.2) :=
    Prod.ext (by decide +kernel) rfl
  exact ⟨h, memory_of_load {} 16 [.asked (.load halfAndNext "half")] halfAndNext "next" h⟩

/-- The byte of the failed load is still there: the load that succeeded has
no record for address 0. -/
theorem load_over_failed_load :
    loadedOver.1 = .ok { address := 0x8000, explicit := false } ∧
    loadedOver.2.engine.memory.cell? 0 = some 0xAA ∧
    ∃ c, halfAndNext.openFile "next" = .ok c ∧
      Image.lastByte? (c.lines.filterMap Image.recordOf?) 0 = none := by
  refine ⟨by decide +kernel, by decide +kernel, _, rfl, ?_⟩
  decide +kernel

end Monitor68.Session
