import Monitor68.Proofs.Session.Residue
import Monitor68.Proofs.Threads.Whole.Parts

/-!
# Operations taken as a whole

Every operation of a session, which is a function from a session to an
outcome and the session afterwards, is one of the interleavings of its
script.
-/

namespace Monitor68

open Script

namespace World

open Session

section Runs

variable {s : Session Simulator}

theorem runs_step : Runs (World.step : Script Scene _) s s.step.1 s.step.2 := by
  unfold Session.step
  refine .bind (.look (g := fun s => Engine.powered s.engine) fun _ => rfl) ?_
  split
  · rename_i hpowered
    refine .bind (.look (g := fun s => Engine.running s.engine) fun _ => rfl) ?_
    split
    · exact runs_fail _
    · have hone : Runs (onMachine Threaded.stepOne) s _ _ :=
        runs_onMachine (Simulator.Manned.runs_stepOne s.engine)
      refine .bind hone ?_
      rw [Control.step, if_pos hpowered]
      have hstep : Engine.stepOne s.engine = s.engine.stepOne := rfl
      rw [hstep]
      cases s.engine.stepOne with
      | error error => exact runs_fail _
      | ok e' =>
        refine .bind (runs_enter .stepping) (.bind (.edit (fun _ _ => rfl) fun _ => rfl) ?_)
        refine .bind (.look (g := fun s => View.of s.engine s.listing s.watches.watches)
          fun _ => rfl) ?_
        exact .pure _
  · exact runs_fail _

theorem runs_run : Runs (World.run : Script Scene _) s s.run.1 s.run.2 := by
  unfold Session.run
  refine .bind (.look (g := fun s => Engine.powered s.engine) fun _ => rfl) ?_
  split
  · refine .bind (.look (g := fun s => s.polling) fun _ => rfl) ?_
    split
    · exact .pure _
    · have hone : Runs (onMachine Threaded.run) s _ _ :=
        runs_onMachine (Simulator.Manned.runs_run s.engine)
      refine .bind hone ?_
      have hrun : Engine.run s.engine = s.engine.run := rfl
      rw [hrun]
      cases s.engine.run with
      | error error => exact runs_fail _
      | ok e' => exact .bind (runs_enter .running) (.bind runs_start (.pure _))
  · exact runs_fail _

theorem runs_powerDown :
    Runs (World.powerDown : Script Scene _) s s.powerDown.1 s.powerDown.2 := by
  unfold Session.powerDown
  refine .bind runs_stopPolling ?_
  have hdown : Runs (onMachine Threaded.shutdown) { s with polling := false } _ _ :=
    runs_onMachine (Simulator.Manned.runs_shutdown s.engine)
  refine .bind hdown ?_
  unfold Control.powerDown
  have hshutdown : Engine.shutdown s.engine = s.engine.shutdown := rfl
  simp only [hshutdown]
  cases s.engine.shutdown with
  | ok e' => exact .pure _
  | error error =>
    cases error with
    | alreadyShutdown => exact .pure _
    | _ => exact runs_fail _

theorem runs_powerDownTo (state : SessionState) :
    Runs (World.powerDownTo state : Script Scene _) s (s.powerDownTo state).1
      (s.powerDownTo state).2 := by
  unfold Session.powerDownTo
  refine .bind runs_powerDown ?_
  generalize s.powerDown = out
  obtain ⟨answer, s'⟩ := out
  cases answer with
  | error error => exact .pure _
  | ok _ => exact .bind (runs_enter state) (.pure _)

theorem runs_reset (hfresh : s.fresh.running = false) :
    Runs (World.reset : Script Scene _) s s.reset.1 s.reset.2 := by
  have hkeep : s.powerDown.2.fresh = s.fresh := by
    rcases powerDown_cases s with ⟨error, -, h⟩ | ⟨engine, -, h⟩
    · rw [h]
      rfl
    · rw [h]
  unfold Session.reset
  refine .bind runs_powerDown ?_
  revert hkeep
  generalize s.powerDown = out
  obtain ⟨answer, s'⟩ := out
  intro hkeep
  have hkeep' : s'.fresh = s.fresh := hkeep
  cases answer with
  | error error => exact .pure _
  | ok _ =>
    have hforget : Runs (edit fun s => { s with breakpoints := .empty })
        { s' with engine := s'.fresh } () { s' with engine := s'.fresh, breakpoints := .empty } :=
      .edit (fun _ _ => rfl) fun _ => rfl
    have hdrop : Runs (edit fun s => { s with listing := none })
        { s' with engine := s'.fresh, breakpoints := .empty } ()
        { s' with engine := s'.fresh, breakpoints := .empty, listing := none } :=
      .edit (fun _ _ => rfl) fun _ => rfl
    exact .bind (runs_replace (hkeep'.symm ▸ hfresh)) (.bind hforget (.bind hdrop
      (.bind (runs_enter .unloaded) (.pure _))))

theorem runs_onEngine {f : Simulator → Except EngineError Simulator}
    (hf : ∀ e e', f e = .ok e' → e'.running = e.running) :
    let out := Simulator.Manned.outcome s.engine (f s.engine)
    Runs (onEngine f : Script Scene _) s out.1 { s with engine := out.2 } := by
  intro out
  refine .once fun w hw => ?_
  have hengine := hw.engine
  cases h : f s.engine with
  | error error =>
    refine ⟨rfl, ?_, ?_⟩ <;> simp only [hengine, h, out, Simulator.Manned.outcome]
    exact hw
  | ok e' =>
    refine ⟨rfl, ?_, ?_⟩ <;> simp only [hengine, h, out, Simulator.Manned.outcome]
    exact hw.withEngine (hf _ _ h)

theorem runs_setBreakpoint (address : UInt32) :
    let out := s.breakpoints.set s.engine address .supervisor
    Runs (World.setBreakpoint address : Script Scene _) s (out.map (·.1))
      (match out with
        | .error _ => s
        | .ok (_, breakpoints, engine) => { s with breakpoints, engine }) := by
  intro out
  have hset := runs_onEngine (s := s)
    (f := fun e => Engine.setBreakpoint e s.breakpoints.nextFreeSlot address .supervisor) ?_
  · refine .bind (.look (g := fun s => s.breakpoints.nextFreeSlot) fun _ => rfl)
      (.bind hset ?_)
    simp only [out, TrackedBreakpoints.set]
    cases Engine.setBreakpoint s.engine s.breakpoints.nextFreeSlot address .supervisor with
    | error error => exact .pure _
    | ok e' => exact .bind (.edit (fun _ _ => rfl) fun _ => rfl) (.pure _)
  · intro e e' h
    have h' : e.setBreakpoint s.breakpoints.nextFreeSlot address .supervisor = .ok e' := h
    unfold Simulator.setBreakpoint at h'
    split at h' <;> cases h'
    rfl

theorem runs_addBreakpoint (address : UInt32) :
    Runs (World.addBreakpoint address : Script Scene _) s (s.addBreakpoint address).1
      (s.addBreakpoint address).2 := by
  unfold Session.addBreakpoint
  refine .bind (runs_setBreakpoint address) ?_
  cases s.breakpoints.set s.engine address .supervisor with
  | error error => exact runs_fail _
  | ok out => exact .pure _

theorem runs_placeRecords (records : List SRecord.Record) :
    Runs (placeRecords records : Script Scene _) s (Image.place s.engine records).2
      { s with engine := (Image.place s.engine records).1 } := by
  induction records generalizing s with
  | nil => exact .pure _
  | cons r rest ih =>
    cases r with
    | start address => exact ih
    | data address payload =>
      have hrunning : (s.engine.writeBlock address payload).1.running = s.engine.running := by
        unfold Simulator.writeBlock
        split <;> rfl
      have hwrite : Runs (atomically fun w : Scene =>
          let out := Engine.writeBlock w.session.engine address payload
          (out.2, { w with session := { w.session with engine := out.1 } })) s
          (s.engine.writeBlock address payload).2
          { s with engine := (s.engine.writeBlock address payload).1 } := by
        refine .once fun w hw => ?_
        have hengine := hw.engine
        refine ⟨rfl, ?_, ?_⟩
        · rw [← hengine]
          rfl
        · simp only [hengine]
          exact hw.withEngine hrunning
      refine .bind hwrite ?_
      rw [Image.place]
      have hsame : Engine.writeBlock s.engine address payload =
        s.engine.writeBlock address payload := rfl
      rw [hsame]
      generalize s.engine.writeBlock address payload = out
      obtain ⟨e', answer⟩ := out
      cases answer with
      | error error => exact .pure _
      | ok _ => exact ih

theorem runs_enterProgram (entry : EntryPoint) (stack : UInt32) :
    Runs (enterProgram entry stack : Script Scene _) s (Image.enter s.target entry stack).2
      (s.onTarget (Image.enter s.target entry stack).1) := by
  have hclear : Runs (edit fun s => { s with engine := Engine.clearBreakpoints s.engine }) s ()
      { s with engine := s.engine.clearBreakpoints } := .edit (fun _ _ => rfl) fun _ => rfl
  have hforget : Runs (edit fun s => { s with breakpoints := .empty })
      { s with engine := s.engine.clearBreakpoints } ()
      { s with engine := s.engine.clearBreakpoints, breakpoints := .empty } :=
    .edit (fun _ _ => rfl) fun _ => rfl
  have hreset : ∀ s : Session Simulator,
      Runs (onMachine (Threaded.reset entry.address stack)) s (.ok ())
        { s with engine := s.engine.reset entry.address stack } := fun s =>
    runs_onMachine (Simulator.Manned.runs_reset s.engine entry.address stack)
  refine .bind hclear (.bind hforget ?_)
  unfold Image.enter Image.guardEntry
  simp only [TrackedBreakpoints.clear]
  split
  · refine .bind (runs_setBreakpoint entry.address) ?_
    have hsame : Engine.clearBreakpoints s.target.engine = s.engine.clearBreakpoints := rfl
    rw [hsame]
    dsimp only
    cases TrackedBreakpoints.empty.set s.engine.clearBreakpoints entry.address .supervisor with
    | error error => exact .pure _
    | ok out => exact hreset _
  · exact hreset _

theorem runs_loadImage (files : Files.FileSystem) (path : String) :
    Runs (World.loadImage s.settings files path : Script Scene _) s
      (s.loadImage files path).1 (s.loadImage files path).2 := by
  unfold World.loadImage
  cases hopen : files.openFile path with
  | error error =>
    rw [loadImage_of_error s hopen]
    exact runs_fail _
  | ok c =>
    simp only [Session.loadImage, hopen, Image.load]
    cases Image.records c.lines with
    | error error => exact runs_fail _
    | ok records =>
      simp only [Image.install]
      refine .bind (runs_placeRecords records) ?_
      generalize Image.place s.engine records = placed
      obtain ⟨e', answer⟩ := placed
      cases answer with
      | error error => exact runs_fail _
      | ok _ =>
        refine .bind (runs_enterProgram _ _) ?_
        have htarget : ({ s with engine := e' } : Session Simulator).target =
            { engine := e', breakpoints := s.breakpoints } := rfl
        simp only [htarget]
        generalize Image.enter ({ engine := e', breakpoints := s.breakpoints } : Target Simulator)
          (Image.entryPoint s.settings.base records) s.settings.stack = entered
        obtain ⟨t, answer⟩ := entered
        cases answer with
        | error error => exact runs_fail _
        | ok _ =>
          refine .bind (.edit (fun _ _ => rfl) fun _ => rfl) ?_
          refine .bind (.edit (fun _ _ => rfl) fun _ => rfl) ?_
          exact .bind (runs_enter .loaded) (.pure _)

theorem runs_attach (files : Files.FileSystem) (path : String) (importing : Bool) :
    Runs (World.attach files path importing : Script Scene _) s (s.attach files path importing).1
      (s.attach files path importing).2 := by
  unfold World.attach Session.attach
  cases readListing files path with
  | error error =>
    exact .bind (.edit (fun _ _ => rfl) fun _ => rfl)
      (.bind (.edit (fun _ _ => rfl) fun _ => rfl) (.pure _))
  | ok listing =>
    refine .bind (.edit (fun _ _ => rfl) fun _ => rfl) ?_
    refine .bind (.edit (fun _ _ => rfl) fun _ => rfl) ?_
    exact .bind (.edit (fun _ _ => rfl) fun _ => rfl) (.pure _)

theorem settings_startedOver (s : Session Simulator) : s.startedOver.settings = s.settings := by
  obtain ⟨events, h⟩ := enter_frame ({ s with
    polling := false, engine := s.fresh, breakpoints := .empty, listing := none } :
    Session Simulator) .unloaded
  rw [startedOver, h]

theorem runs_load (hfresh : s.fresh.running = false) (files : Files.FileSystem) (path : String) :
    Runs (World.load s.settings files path : Script Scene _) s (s.load files path).1
      (s.load files path).2 := by
  rw [load_simulator]
  refine .bind runs_readState ?_
  unfold readied
  split
  · exact runs_loadImage files path
  · have hreset := runs_reset hfresh
    rw [reset_simulator] at hreset
    refine .bind hreset ?_
    have hload := runs_loadImage (s := s.startedOver) files path
    rwa [settings_startedOver] at hload

theorem runs_openSource (hfresh : s.fresh.running = false) (files : Files.FileSystem)
    (source : String) (importing : Bool) :
    Runs (World.openSource s.settings files source importing : Script Scene _) s
      (s.openSource files source importing).1 (s.openSource files source importing).2 := by
  unfold World.openSource Session.openSource
  cases companion files source imageExtensions with
  | none => exact runs_fail _
  | some image =>
    refine .bind (runs_load hfresh files image) ?_
    simp only
    generalize s.load files image = out
    obtain ⟨answer, s'⟩ := out
    cases answer with
    | error error => exact .pure _
    | ok entry => exact .bind (runs_attach files _ importing) (.pure _)

/-- What is asked of a session is one of the interleavings of its script. -/
theorem runs_script (hfresh : s.fresh.running = false) (request : Request) :
    Runs (World.script s.settings request : Script Scene _) s (request.perform s).1
      (request.perform s).2 := by
  cases request with
  | load files path => exact .bind (runs_load hfresh files path) (.pure _)
  | openSource files source importing =>
    exact .bind (runs_openSource hfresh files source importing) (.pure _)
  | attach files path importing => exact .bind (runs_attach files path importing) (.pure _)
  | step => exact .bind runs_step (.pure _)
  | run => exact runs_run
  | stop =>
    show Runs _ s s.stop.1 s.stop.2
    rw [Session.stop_eq]
    exact runs_powerDownTo .halted
  | powerOff =>
    show Runs _ s s.powerOff.1 s.powerOff.2
    rw [Session.powerOff_eq]
    exact runs_powerDownTo .poweredOff
  | reset => exact runs_reset hfresh
  | addBreakpoint address => exact .bind (runs_addBreakpoint address) (.pure _)
  | editWatches update => exact .bind (.edit (fun _ _ => rfl) fun _ => rfl) (.pure _)
  | refreshWatches => exact .bind (.edit (fun _ _ => rfl) fun _ => rfl) (.pure _)

end Runs

end World

end Monitor68
