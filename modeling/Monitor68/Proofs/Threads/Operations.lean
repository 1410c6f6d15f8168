import Monitor68.Proofs.Threads.Settled

/-!
# Operations among threads

What each operation of a session ensures while the threads of the engine
and the polling thread move.  The lemmas follow the scripts from their
parts to the requests, and the last one says that every request leads from
a settled session to a settled session.

Where the answer of a script can only be success on a simulator, its
postcondition says so, and the branches for failures drop out.
-/

namespace Monitor68

open Script Simulator

open Assertion World

/-! ## Parts of the operations -/

section Parts

variable {α : Type} {P : Assertion}

theorem edit_meets {f : Session Simulator → Session Simulator}
    (hf : ∀ w : Scene, ({ w with session := f w.session } : Scene).outline = w.outline) :
    Meets P (edit f) fun _ => P :=
  .silent hf

theorem fail_meets (error : SessionError) :
    Meets P (World.fail error : Script Scene (Except SessionError α)) fun _ => P :=
  (edit_meets fun _ => rfl).bind fun _ => .pure fun _ => id

/-- To enter a state changes nothing else. -/
theorem enter_meets {Q : Assertion} {state : SessionState}
    (h : ∀ o, P.holds o → o.Yields { o with state } ∧ Q.holds { o with state }) :
    Meets P (enter state : Script Scene Unit) fun _ => Q := by
  refine Meets.bind (M := fun _ => Q) (Meets.once fun w hw _ => h w.outline hw) ?_
  intro previous
  split
  · exact .pure fun _ => id
  · exact edit_meets fun _ => rfl

/-- Whoever enters another state than the running one keeps the promise. -/
theorem yields_of_state {o : Outline} {state : SessionState} (h : state ≠ .running) :
    o.Yields { o with state } :=
  .inr ⟨rfl, rfl, id, fun hstate => absurd hstate h⟩

theorem stopPolling_meets {powered calm ended : Bool} :
    Meets (settled powered calm ended) (stopPolling : Script Scene Unit)
      fun _ => stopping true := by
  refine Meets.bind (M := fun held => settled false false (!held)) (.look ?_) ?_
  · intro w hw
    obtain ⟨hsettled, -⟩ := hw
    refine ⟨hsettled, by simp, by simp, fun h => ?_⟩
    refine Decidable.byContradiction fun hphase => ?_
    have hheld : w.task.held = true := (hsettled.kept hphase).1
    simp [hheld] at h
  · intro held
    cases held with
    | false => exact .pure fun o h => ⟨h.1.toCoherent, h.2.2.2⟩
    | true =>
      rw [if_pos rfl]
      refine Meets.bind (M := fun _ => stopping false) (.once fun w hw _ => ?_) fun _ => ?_
      · exact ⟨.inr ⟨rfl, rfl, id, id⟩, hw.1.toCoherent.told _ _ _, by simp⟩
      refine Meets.bind (M := fun _ => stopping false) (.once fun w hw _ => ?_) fun _ => ?_
      · exact ⟨.inr ⟨rfl, rfl, id, id⟩, hw.1.told _ _ _, by simp⟩
      refine .once fun w hw hready => ?_
      have hphase : w.task.phase = .finished := of_decide_eq_true hready
      exact ⟨.inr ⟨rfl, rfl, id, id⟩, hw.1, fun _ => hphase⟩

/-- A script for the engine keeps what does not depend on the engine. -/
theorem onMachine_meets {c : Script Manned α} {F : Assertion} {G : Manned → Manned → Prop}
    {A : α → Prop} {powered calm : Bool} {Q : α → Assertion}
    (hF : ∀ o powered running, F.holds o → F.holds { o with powered, running })
    (hspec : ∀ w : Scene, P.holds w.outline → F.holds w.outline ∧
      Ensures Manned.Moves G (fun a m => A a ∧ Manned.Condition powered calm m) c w.machine)
    (hG : ∀ (w : Scene) m, F.holds w.outline → G w.machine m → Yields w (w.withMachine m))
    (hQ : ∀ a o, F.holds o → A a → o.powered = powered →
      (calm = true → o.running = false) → (Q a).holds o) :
    Meets P (onMachine c) Q := by
  intro w hw
  obtain ⟨hFw, hc⟩ := hspec w hw
  have hmoves : ∀ s t : Scene, World.Moves s t →
      Relation.ReflTransGen Manned.Moves s.machine t.machine := by
    intro s t hmove
    cases hmove with
    | engine h => exact .single h
    | poll h => rw [machine_poll]
  have hset : ∀ (m : Manned) (s : Scene), F.holds s.outline →
      F.holds (withMachine m s).outline := fun m s hs => hF s.outline _ _ hs
  have hget : ∀ (m : Manned) (s : Scene), (withMachine m s).machine = m := fun _ _ => rfl
  have hwithin := Ensures.within hget hmoves F.stable_world hset hc hFw
  refine hwithin.mono ?_ ?_
  · intro s t ht
    obtain ⟨hs, hstep, hst⟩ := ht
    rw [hst]
    exact hG s t.machine hs hstep
  · intro a s hs
    obtain ⟨hs, ha, hpowered, hcalm⟩ := hs
    exact hQ a s.outline hs ha hpowered hcalm

/-- What changes the engine but not its running flag keeps the promise. -/
theorem yields_of_calms {w : Scene} {m : Manned} (h : Manned.Calms w.machine m) :
    Yields w (w.withMachine m) :=
  .inr ⟨rfl, rfl, h, id⟩

theorem stepOne_meets :
    Meets (settled true true false) (onMachine Manned.stepOne)
      fun _ => settled true true false := by
  refine onMachine_meets (F := engaged) (A := fun _ => True) (fun _ _ _ h => h) ?_
    (fun w m _ h => yields_of_calms h) fun _ _ h _ hpowered hcalm =>
      settled_of_engaged h hpowered (hcalm rfl)
  intro w hw
  refine ⟨engaged_of_settled hw, ?_⟩
  have hcondition : Manned.Condition true true w.machine := ⟨hw.2.1 rfl, hw.2.2.1⟩
  exact (Manned.stepOne_spec hcondition).mono (fun _ _ => id) fun _ _ h => ⟨trivial, h⟩

theorem run_meets :
    Meets (settled true false true) (onMachine Manned.run) fun answer =>
      (alone true false none).given (answer = .ok ()) := by
  refine onMachine_meets (F := unattended none) (A := fun answer => answer = .ok ())
    (G := fun _ _ => True) (fun _ _ _ h => h) ?_ ?_
    fun _ _ h hanswer hpowered hcalm => ⟨hanswer, h, hpowered, hcalm⟩
  · intro w hw
    obtain ⟨hsettled, hpowered, -, hended⟩ := hw
    have hphase : w.task.phase = .finished := hended rfl
    refine ⟨⟨hsettled.fresh, hphase, by simp⟩, Manned.run_spec ⟨hpowered rfl, fun _ => ?_⟩⟩
    refine Bool.eq_false_iff.2 fun hrunning => ?_
    exact hsettled.attended (hsettled.going hrunning) hphase
  · intro w m hm _
    obtain ⟨-, hphase, -⟩ := hm
    exact .inl ⟨hphase, .inl hphase⟩

theorem reset_meets (entry stack : UInt32) {state : SessionState} :
    Meets (alone false true (some state)) (onMachine (Manned.reset entry stack)) fun answer =>
      (alone true true none).given (answer = .ok ()) := by
  refine onMachine_meets (F := unattended none) (A := fun answer => answer = .ok ())
    (fun _ _ _ h => h) ?_ (fun w m _ h => yields_of_calms h)
    fun _ _ h hanswer hpowered hcalm => ⟨hanswer, h, hpowered, hcalm⟩
  intro w hw
  obtain ⟨⟨hfresh, hphase, -⟩, -⟩ := hw
  exact ⟨⟨hfresh, hphase, by simp⟩, Manned.reset_spec w.machine entry stack⟩

theorem shutdown_meets :
    Meets (stopping true) (onMachine Manned.shutdown) fun answer =>
      (alone false true none).given (answer = .ok () ∨ answer = .error .alreadyShutdown) := by
  refine onMachine_meets (F := unattended none)
    (A := fun answer => answer = .ok () ∨ answer = .error .alreadyShutdown)
    (fun _ _ _ h => h) ?_ (fun w m _ h => yields_of_calms h)
    fun _ _ h hanswer hpowered hcalm => ⟨hanswer, h, hpowered, hcalm⟩
  intro w hw
  obtain ⟨hcoherent, hended⟩ := hw
  exact ⟨⟨hcoherent.fresh, hended rfl, by simp⟩,
    Manned.shutdown_spec fun hpowered => (hcoherent.dark hpowered).1⟩

end Parts

/-! ## The operations -/

section Operations

/-- A step of a settled session with its engine at rest. -/
theorem stepping_of_settled {o : Outline} (h : (settled true true false).holds o) :
    (settled true true false).holds { o with state := .stepping } := by
  have hpowered : o.powered = true := h.2.1 rfl
  have hrest : o.running = false := h.2.2.1 rfl
  obtain ⟨hfresh, -, -, hkept, -, -⟩ := engaged_of_settled h
  exact settled_of_engaged ⟨hfresh, by simp, by simp, hkept, by simp, by simp⟩ hpowered hrest

theorem step_meets : Meets (settled false false false) (step : Script Scene _)
    fun _ => settled false false false := by
  refine Meets.bind (M := fun powered => settled powered false false) (.look ?_) ?_
  · intro w hw
    obtain ⟨hsettled, -⟩ := hw
    exact ⟨hsettled, id, by simp, by simp⟩
  intro powered
  cases powered with
  | false => exact fail_meets _
  | true =>
    rw [if_pos rfl]
    refine Meets.bind (M := fun running => settled true (!running) false) (.look ?_) ?_
    · intro w hw
      obtain ⟨hsettled, hpowered, -⟩ := hw
      exact ⟨hsettled, hpowered, fun h => Bool.not_inj (y := false) h, by simp⟩
    intro running
    cases running with
    | true => exact (fail_meets _).weaken (fun _ => id) fun _ _ => settled_any
    | false =>
      refine stepOne_meets.bind fun answer => ?_
      cases answer with
      | error error => exact (fail_meets _).weaken (fun _ => id) fun _ _ => settled_any
      | ok _ =>
        refine Meets.bind (M := fun _ => settled true true false)
          (enter_meets fun o ho => ⟨yields_of_state (by simp), stepping_of_settled ho⟩) fun _ => ?_
        refine (edit_meets fun _ => rfl).bind fun _ => ?_
        refine (Meets.silent fun _ => rfl).bind fun _ => ?_
        exact .pure fun _ => settled_any

theorem run_session_meets : Meets (settled false false false) (World.run : Script Scene _)
    fun _ => settled false false false := by
  refine Meets.bind (M := fun powered => settled powered false false) (.look ?_) ?_
  · intro w hw
    obtain ⟨hsettled, -⟩ := hw
    exact ⟨hsettled, id, by simp, by simp⟩
  intro powered
  cases powered with
  | false => exact fail_meets _
  | true =>
    rw [if_pos rfl]
    refine Meets.bind (M := fun active => settled true false (!active)) (.look ?_) ?_
    · intro w hw
      obtain ⟨hsettled, hpowered, -⟩ := hw
      refine ⟨hsettled, hpowered, by simp, fun h => Decidable.byContradiction fun hphase => ?_⟩
      have hheld : w.task.held = true := (hsettled.kept hphase).1
      have hlive : w.task.phase ≠ .finished := hphase
      simp [RepeatingTask.isActive, hheld, hlive] at h
    intro active
    cases active with
    | true => exact .pure fun _ => settled_any
    | false =>
      rw [if_neg Bool.false_ne_true]
      refine run_meets.bind fun answer => ?_
      cases answer with
      | error error => exact fun w hw => absurd hw.1 (by simp)
      | ok _ =>
        refine Meets.bind (M := fun _ => alone true false (some .running))
          (enter_meets ?_) fun _ => ?_
        · intro o ho
          obtain ⟨-, ⟨hfresh, hphase, -⟩, hpowered, -⟩ := ho
          refine ⟨.inl ⟨hphase, .inl hphase⟩, ⟨hfresh, hphase, ?_⟩, hpowered, by simp⟩
          exact fun s hs => Option.some.inj hs
        refine Meets.bind (M := fun _ => settled false false false) (.once ?_) fun _ => ?_
        · intro w hw _
          exact ⟨.inl ⟨hw.1.2.1, .inr rfl⟩, settled_of_started hw⟩
        · exact .pure fun _ => id

theorem powerDown_meets : Meets (settled false false false) (World.powerDown : Script Scene _)
    fun answer => (alone false true none).given (answer = .ok ()) := by
  refine stopPolling_meets.bind fun _ => shutdown_meets.bind fun answer => ?_
  cases answer with
  | ok _ => exact .pure fun o h => ⟨rfl, h.2⟩
  | error error =>
    cases error with
    | alreadyShutdown => exact .pure fun o h => ⟨rfl, h.2⟩
    | _ => exact fun w hw => absurd hw.1 (by simp)

/-- Once the engine is down, the state follows. -/
theorem enter_alone {state : SessionState} (hstate : Passive state) {A : Prop} :
    Meets ((alone false true none).given A) (enter state : Script Scene Unit)
      fun _ => alone false true (some state) := by
  refine enter_meets ?_
  intro o ho
  obtain ⟨-, ⟨hfresh, hphase, -⟩, hpowered, hcalm⟩ := ho
  exact ⟨yields_of_state hstate.2.2,
    ⟨hfresh, hphase, fun _ hs => Option.some.inj hs⟩, hpowered, hcalm⟩

theorem powerDownTo_meets {state : SessionState} (hstate : Passive state) :
    Meets (settled false false false) (World.powerDownTo state : Script Scene _)
      fun _ => settled false false false := by
  refine powerDown_meets.bind fun answer => ?_
  cases answer with
  | error error => exact fun w hw => absurd hw.1 (by simp)
  | ok _ =>
    refine (enter_alone hstate).bind fun _ => .pure fun o h => ?_
    exact settled_any (settled_of_alone hstate h)

theorem reset_session_meets : Meets (settled false false false) (World.reset : Script Scene _)
    fun answer => (alone false true (some .unloaded)).given (answer = .ok ()) := by
  refine powerDown_meets.bind fun answer => ?_
  cases answer with
  | error error => exact fun w hw => absurd hw.1 (by simp)
  | ok _ =>
    refine Meets.bind (M := fun _ => (alone false true none).given True) (.once ?_) fun _ => ?_
    · intro w hw _
      obtain ⟨-, ⟨hfresh, hphase, -⟩, -⟩ := hw
      have hmade : w.session.fresh.powered = false ∧ w.session.fresh.running = false := by
        simpa [World.outline] using hfresh
      have hcalm : Manned.Calms w.machine
          { engine := w.session.fresh, threads := Threaded.fresh Simulator } :=
        .of_rest hmade.2
      exact ⟨yields_of_calms hcalm, trivial, ⟨hfresh, hphase, by simp⟩, hmade.1, fun _ => hmade.2⟩
    refine (edit_meets fun _ => rfl).bind fun _ => ?_
    refine (edit_meets fun _ => rfl).bind fun _ => ?_
    refine (enter_alone passive_unloaded).bind fun _ => ?_
    exact .pure fun o h => ⟨rfl, h⟩

/-- What the engine does in one step does not matter, if it touches neither
the power nor the running flag. -/
theorem onEngine_meets {P : Assertion} {f : Simulator → Except EngineError Simulator}
    (hf : ∀ e e', f e = .ok e' → e'.powered = e.powered ∧ e'.running = e.running) :
    Meets P (onEngine f : Script Scene _) fun _ => P := by
  refine .silent fun w => ?_
  cases h : f w.session.engine with
  | error error => rfl
  | ok e' =>
    obtain ⟨hpowered, hrunning⟩ := hf _ _ h
    simp only [World.outline, hpowered, hrunning]

theorem setBreakpoint_meets {P : Assertion} (address : UInt32) :
    Meets P (World.setBreakpoint address : Script Scene _) fun _ => P := by
  refine (Meets.silent fun _ => rfl).bind fun slot => ?_
  refine (onEngine_meets fun e e' h => ?_).bind fun answer => ?_
  · have h' : e.setBreakpoint slot address .supervisor = .ok e' := h
    unfold Simulator.setBreakpoint at h'
    split at h' <;> cases h'
    exact ⟨rfl, rfl⟩
  cases answer with
  | error error => exact .pure fun _ => id
  | ok _ => exact (edit_meets fun _ => rfl).bind fun _ => .pure fun _ => id

theorem placeRecords_meets {P : Assertion} (records : List SRecord.Record) :
    Meets P (placeRecords records : Script Scene _) fun _ => P := by
  induction records with
  | nil => exact .pure fun _ => id
  | cons r rest ih =>
    cases r with
    | start address => exact ih
    | data address payload =>
      refine Meets.bind (M := fun _ => P) (.silent fun w => ?_) fun answer => ?_
      · let engine := (w.session.engine.writeBlock address payload).1
        show World.outline { w with session := { w.session with engine } } = _
        unfold engine Simulator.writeBlock
        split <;> rfl
      cases answer with
      | error error => exact .pure fun _ => id
      | ok _ => exact ih

theorem enterProgram_meets (entry : EntryPoint) (stack : UInt32) :
    Meets (alone false true (some .unloaded)) (enterProgram entry stack : Script Scene _)
      entered := by
  have hreset : Meets (alone false true (some .unloaded))
      (onMachine (Threaded.reset entry.address stack) : Script Scene _) entered := by
    refine (reset_meets entry.address stack).weaken (fun _ => id) ?_
    intro answer o ho
    obtain ⟨rfl, h⟩ := ho
    exact h
  refine (edit_meets fun _ => rfl).bind fun _ => ?_
  refine (edit_meets fun _ => rfl).bind fun _ => ?_
  split
  · refine (setBreakpoint_meets _).bind fun answer => ?_
    cases answer with
    | error error => exact .pure fun _ => id
    | ok _ => exact hreset
  · exact hreset

/-- A load into a session without a program. -/
theorem loadImage_meets (settings : Settings) (files : Files.FileSystem) (path : String) :
    Meets (alone false true (some .unloaded))
      (World.loadImage settings files path : Script Scene _)
      fun _ => settled false false false := by
  have hfail : ∀ error, Meets (alone false true (some .unloaded))
      (World.fail error : Script Scene (Except SessionError EntryPoint))
      fun _ => settled false false false := fun error =>
    (fail_meets error).weaken (fun _ => id) fun _ _ h =>
      settled_any (settled_of_alone passive_unloaded h)
  unfold World.loadImage
  cases files.openFile path with
  | error error => exact hfail _
  | ok contents =>
    simp only
    cases Image.records contents.lines with
    | error error => exact hfail _
    | ok records =>
      refine (placeRecords_meets records).bind fun placed => ?_
      cases placed with
      | error error => exact hfail _
      | ok _ =>
        refine (enterProgram_meets _ _).bind fun entered => ?_
        cases entered with
        | error error => exact hfail _
        | ok _ =>
          refine (edit_meets fun _ => rfl).bind fun _ => ?_
          refine (edit_meets fun _ => rfl).bind fun _ => ?_
          refine Meets.bind (M := fun _ => settled false false false) (enter_meets ?_)
            fun _ => .pure fun _ => id
          exact fun o ho => ⟨yields_of_state (by simp), settled_of_entered ho⟩

theorem load_meets (settings : Settings) (files : Files.FileSystem) (path : String) :
    Meets (settled false false false) (World.load settings files path : Script Scene _)
      fun _ => settled false false false := by
  refine Meets.bind
    (M := fun state => if state = .unloaded then alone false true (some .unloaded)
      else settled false false false) (.once fun w hw _ => ?_) fun state => ?_
  · refine ⟨.inr ⟨rfl, rfl, id, id⟩, ?_⟩
    by_cases hstate : w.session.state = .unloaded
    · rw [if_pos hstate]
      exact alone_of_unloaded hw.1 hstate
    · rw [if_neg hstate]
      exact hw
  by_cases hstate : state = .unloaded
  · rw [if_pos hstate, if_pos hstate]
    exact loadImage_meets settings files path
  · rw [if_neg hstate, if_neg hstate]
    refine reset_session_meets.bind fun answer => ?_
    cases answer with
    | error error => exact fun w hw => absurd hw.1 (by simp)
    | ok _ => exact (loadImage_meets settings files path).weaken (fun _ h => h.2) fun _ _ => id

theorem attach_meets {P : Assertion} (files : Files.FileSystem) (path : String)
    (importing : Bool) :
    Meets P (World.attach files path importing : Script Scene _) fun _ => P := by
  unfold World.attach
  cases Session.readListing files path with
  | error error =>
    refine (edit_meets fun _ => rfl).bind fun _ => ?_
    exact (edit_meets fun _ => rfl).bind fun _ => .pure fun _ => id
  | ok listing =>
    refine (edit_meets fun _ => rfl).bind fun _ => ?_
    refine (edit_meets fun _ => rfl).bind fun _ => ?_
    exact (edit_meets fun _ => rfl).bind fun _ => .pure fun _ => id

theorem openSource_meets (settings : Settings) (files : Files.FileSystem) (source : String)
    (importing : Bool) :
    Meets (settled false false false)
      (World.openSource settings files source importing : Script Scene _)
      fun _ => settled false false false := by
  unfold World.openSource
  cases Session.companion files source Session.imageExtensions with
  | none => exact fail_meets _
  | some image =>
    refine (load_meets settings files image).bind fun answer => ?_
    cases answer with
    | error error => exact .pure fun _ => id
    | ok entry => exact (attach_meets files _ importing).bind fun _ => .pure fun _ => id

theorem addBreakpoint_meets {P : Assertion} (address : UInt32) :
    Meets P (World.addBreakpoint address : Script Scene _) fun _ => P := by
  refine (setBreakpoint_meets address).bind fun answer => ?_
  cases answer with
  | error error => exact fail_meets _
  | ok b => exact .pure fun _ => id

/-- Every request leads from a settled session to a settled session. -/
theorem script_meets (settings : Settings) (request : Session.Request) :
    Meets (settled false false false) (World.script settings request : Script Scene _)
      fun _ => settled false false false := by
  have hforget : ∀ {α : Type} {c : Script Scene (Except SessionError α)},
      Meets (settled false false false) c (fun _ => settled false false false) →
      Meets (settled false false false) (forget c) fun _ => settled false false false :=
    fun h => h.bind fun _ => .pure fun _ => id
  cases request with
  | load files path => exact hforget (load_meets settings files path)
  | openSource files source importing =>
    exact hforget (openSource_meets settings files source importing)
  | attach files path importing =>
    exact (attach_meets files path importing).bind fun _ => .pure fun _ => id
  | step => exact hforget step_meets
  | run => exact run_session_meets
  | stop => exact powerDownTo_meets ⟨by simp, by simp, by simp⟩
  | powerOff => exact powerDownTo_meets ⟨by simp, by simp, by simp⟩
  | reset =>
    refine reset_session_meets.weaken (fun _ => id) fun _ _ h => ?_
    exact settled_any (settled_of_alone passive_unloaded h.2)
  | addBreakpoint address => exact hforget (addBreakpoint_meets address)
  | editWatches update => exact (edit_meets fun _ => rfl).bind fun _ => .pure fun _ => id
  | refreshWatches => exact (edit_meets fun _ => rfl).bind fun _ => .pure fun _ => id

end Operations

end Monitor68
