import Mathlib.Data.List.Destutter
import Monitor68.Proofs.Threads.Ledger
import Monitor68.Proofs.Threads.Agreement

/-!
# The events are the history of the state

The observers of a session learn its states from the stream of events.
What they can make of it is the list of the states told, and
`events_are_history` says that this is the list of the values that the
state has had, with no value left out, none invented, and none told twice
in a row.  Between a write and its telling the stream is behind by that
one value; between two operations it is complete once the polling thread
has released the state.

This holds for any engine, also for one that refuses to work.
-/

namespace Monitor68

open Script

namespace Ledger

variable {ε τ : Type} [Engine ε] [Threaded ε τ] {α : Type} {P : Reliable Moves}

/-- What a script does to the ledger. -/
abbrev Keeps (P : Reliable Moves) (c : Script (World ε τ) α) (Q : α → Reliable Moves) : Prop :=
  aspect.Upholds P c Q

open World Aspect

/-! ## Parts of the operations -/

theorem edit_keeps {f : Session ε → Session ε} (hstate : ∀ s, (f s).state = s.state)
    (hevents : ∀ s, (f s).told = s.told) :
    Keeps P (edit f : Script (World ε τ) Unit) fun _ => P := by
  refine Upholds.silent fun w => ?_
  show World.ledger { w with session := f w.session } = w.ledger
  simp only [World.ledger, World.locked, hstate, hevents]

/-- To tell something else than a state. -/
theorem emit_keeps {event : SessionEvent} (h : event.state? = none) :
    Keeps P (edit fun s => s.emit event : Script (World ε τ) Unit) fun _ => P :=
  edit_keeps (fun _ => rfl) fun s => by simp [h]

theorem fail_keeps (error : SessionError) :
    Keeps P (World.fail error : Script (World ε τ) (Except SessionError α)) fun _ => P :=
  Upholds.bind (emit_keeps rfl) fun _ => Upholds.pure fun _ => id

theorem onMachine_keeps (c : Script (Machine ε τ) α) : Keeps P (onMachine c) fun _ => P :=
  Upholds.beside (fun _ _ => rfl) fun _ _ => rfl

theorem onEngine_keeps (f : ε → Except EngineError ε) :
    Keeps P (onEngine f : Script (World ε τ) _) fun _ => P := by
  refine Upholds.silent fun w => ?_
  simp only
  split <;> rfl

theorem setBreakpoint_keeps (address : UInt32) :
    Keeps P (World.setBreakpoint address : Script (World ε τ) _) fun _ => P := by
  refine Upholds.bind (Upholds.silent fun _ => rfl) fun slot => ?_
  refine Upholds.bind (onEngine_keeps _) fun answer => ?_
  cases answer with
  | error error => exact Upholds.pure fun _ => id
  | ok _ =>
    exact Upholds.bind (edit_keeps (fun _ => rfl) fun _ => rfl) fun _ =>
      Upholds.pure fun _ => id

theorem placeRecords_keeps (records : List SRecord.Record) :
    Keeps P (placeRecords records : Script (World ε τ) _) fun _ => P := by
  induction records with
  | nil => exact Upholds.pure fun _ => id
  | cons r rest ih =>
    cases r with
    | start address => exact ih
    | data address payload =>
      refine Upholds.bind (Upholds.silent fun _ => rfl) fun answer => ?_
      cases answer with
      | error error => exact Upholds.pure fun _ => id
      | ok _ => exact ih

theorem enterProgram_keeps (entry : EntryPoint) (stack : UInt32) :
    Keeps P (enterProgram entry stack : Script (World ε τ) _) fun _ => P := by
  refine Upholds.bind (edit_keeps (fun _ => rfl) fun _ => rfl) fun _ => ?_
  refine Upholds.bind (edit_keeps (fun _ => rfl) fun _ => rfl) fun _ => ?_
  split
  · refine Upholds.bind (setBreakpoint_keeps _) fun answer => ?_
    cases answer with
    | error error => exact Upholds.pure fun _ => id
    | ok _ => exact onMachine_keeps _
  · exact onMachine_keeps _

/-- To enter a state is to write it and to tell it.  The running state is
entered only without a polling thread. -/
theorem enter_keeps {ended : Bool} {state : SessionState}
    (h : state = .running → ended = true) :
    Keeps (settled ended) (enter state : Script (World ε τ) Unit) fun _ => settled ended := by
  refine Upholds.bind (M := fun previous => pending ended previous state)
    (Upholds.once fun w hw hready => ?_) fun previous => ?_
  · have hopen : w.locked = false := by simpa using hready
    exact write hw hopen h
  · split
    · rename_i hsame
      rw [hsame]
      exact Upholds.pure fun _ => settled_of_same
    · rename_i hother
      refine Upholds.once fun w hw _ => ?_
      have hpending : (pending ended previous state).holds w.ledger := hw
      have htell := tell hpending hother
      have htold : World.ledger { w with session := w.session.emit (.stateChanged state) } =
          { w.ledger with told := w.ledger.told ++ [state] } := by
        simp [World.ledger, World.locked, SessionEvent.state?]
      rw [← htold] at htell
      exact htell

/-- The owner lets go of the polling thread only to wait for its end. -/
theorem stopPolling_keeps {ended : Bool} :
    Keeps (settled ended) (stopPolling : Script (World ε τ) Unit) fun _ => settled true := by
  refine Upholds.bind (M := fun held => settled (!held)) (Upholds.look fun w hw => ?_)
    fun held => ?_
  · obtain ⟨hclean, hheld, -⟩ := hw
    refine ⟨hclean, hheld, fun hnot => ?_⟩
    have hfree : w.ledger.held = false := by
      show w.task.held = false
      simpa using hnot
    exact Bool.eq_false_iff.2 fun halive => absurd_of_down hfree (hheld halive)
  · cases held with
    | false => exact Upholds.pure fun _ => id
    | true =>
      rw [if_pos rfl]
      refine Upholds.bind (Upholds.silent fun _ => rfl) fun _ => ?_
      -- The thread is let go of here and may still end a running state before it finishes.
      refine Upholds.bind (M := fun _ => clean) (Upholds.once fun w hw _ => ?_) fun _ => ?_
      · exact ⟨⟨.same rfl rfl, fun h => ⟨h.announced, h.running⟩⟩,
          hw.1.announced, hw.1.current⟩
      refine Upholds.once fun w hw hready => ⟨.refl _, settled_of_clean hw ?_⟩
      have hphase : w.task.phase = .finished := of_decide_eq_true hready
      show decide (w.task.phase ≠ .finished) = false
      simp [hphase]

/-! ## The operations -/

theorem step_keeps : Keeps (settled false) (step : Script (World ε τ) _)
    fun _ => settled false := by
  refine Upholds.bind (Upholds.silent fun _ => rfl) fun powered => ?_
  split
  · refine Upholds.bind (Upholds.silent fun _ => rfl) fun running => ?_
    split
    · exact fail_keeps _
    · refine Upholds.bind (onMachine_keeps _) fun answer => ?_
      cases answer with
      | error error => exact fail_keeps _
      | ok _ =>
        refine Upholds.bind (enter_keeps (by simp)) fun _ => ?_
        refine Upholds.bind (edit_keeps (fun _ => rfl) fun _ => rfl) fun _ => ?_
        exact Upholds.bind (Upholds.silent fun _ => rfl) fun _ => Upholds.pure fun _ => id
  · exact fail_keeps _

theorem run_keeps : Keeps (settled false) (run : Script (World ε τ) _)
    fun _ => settled false := by
  refine Upholds.bind (Upholds.silent fun _ => rfl) fun powered => ?_
  split
  · refine Upholds.bind (M := fun active => settled (!active)) (Upholds.look fun w hw => ?_)
      fun active => ?_
    · obtain ⟨hclean, hheld, -⟩ := hw
      -- A live thread is held, so one that is not active has ended.
      refine ⟨hclean, hheld, fun hnot => Bool.eq_false_iff.2 fun halive => ?_⟩
      have hphase : w.task.phase ≠ .finished := of_decide_eq_true halive
      have hkept : w.task.held = true := hheld halive
      simp [RepeatingTask.isActive, hkept, hphase] at hnot
    · cases active with
      | true => exact Upholds.pure fun _ => id
      | false =>
        rw [if_neg Bool.false_ne_true]
        refine Upholds.bind (onMachine_keeps _) fun answer => ?_
        cases answer with
        | error error => exact (fail_keeps _).weaken (fun _ => id) fun _ _ => settled_any
        | ok _ =>
          refine Upholds.bind (enter_keeps fun _ => rfl) fun _ => ?_
          refine Upholds.bind (M := fun _ => settled false) (Upholds.once fun w hw _ => ?_)
            fun _ => Upholds.pure fun _ => id
          have hsettled : (settled true).holds w.ledger := hw
          have hphase : w.task.phase = .finished := by
            simpa [World.ledger] using hsettled.2.2 rfl
          have hstart := start hsettled (unlocked_of_finished hphase)
          have hstarted : World.ledger { w with task := .started } =
              { w.ledger with alive := true, announcing := false, held := true } := by
            simp [World.ledger, World.locked, RepeatingTask.started]
          rw [← hstarted] at hstart
          exact hstart
  · exact fail_keeps _

theorem powerDown_keeps : Keeps (settled false) (World.powerDown : Script (World ε τ) _)
    fun _ => settled true := by
  refine Upholds.bind stopPolling_keeps fun _ => ?_
  refine Upholds.bind (onMachine_keeps _) fun answer => ?_
  split
  · exact Upholds.pure fun _ => id
  · exact fail_keeps _
  · exact Upholds.pure fun _ => id

theorem powerDownTo_keeps {state : SessionState} (h : state ≠ .running) :
    Keeps (settled false) (World.powerDownTo state : Script (World ε τ) _)
      fun _ => settled false := by
  refine Upholds.bind powerDown_keeps fun answer => ?_
  cases answer with
  | error error => exact Upholds.pure fun _ => settled_any
  | ok _ =>
    exact Upholds.bind (enter_keeps fun hrunning => absurd hrunning h) fun _ =>
      Upholds.pure fun _ => settled_any

theorem reset_keeps : Keeps (settled false) (World.reset : Script (World ε τ) _)
    fun _ => settled false := by
  refine Upholds.bind powerDown_keeps fun answer => ?_
  cases answer with
  | error error => exact Upholds.pure fun _ => settled_any
  | ok _ =>
    refine Upholds.bind (Upholds.silent fun _ => rfl) fun _ => ?_
    refine Upholds.bind (edit_keeps (fun _ => rfl) fun _ => rfl) fun _ => ?_
    refine Upholds.bind (edit_keeps (fun _ => rfl) fun _ => rfl) fun _ => ?_
    exact Upholds.bind (enter_keeps (by simp)) fun _ => Upholds.pure fun _ => settled_any

theorem loadImage_keeps (settings : Settings) (files : Files.FileSystem) (path : String) :
    Keeps (settled false) (World.loadImage settings files path : Script (World ε τ) _)
      fun _ => settled false := by
  unfold World.loadImage
  split
  · exact fail_keeps _
  · split
    · exact fail_keeps _
    · refine Upholds.bind (placeRecords_keeps _) fun placed => ?_
      cases placed with
      | error error => exact fail_keeps _
      | ok _ =>
        refine Upholds.bind (enterProgram_keeps _ _) fun entered => ?_
        cases entered with
        | error error => exact fail_keeps _
        | ok _ =>
          refine Upholds.bind (edit_keeps (fun _ => rfl) fun _ => rfl) fun _ => ?_
          refine Upholds.bind (emit_keeps rfl) fun _ => ?_
          exact Upholds.bind (enter_keeps (by simp)) fun _ => Upholds.pure fun _ => id

theorem load_keeps (settings : Settings) (files : Files.FileSystem) (path : String) :
    Keeps (settled false) (World.load settings files path : Script (World ε τ) _)
      fun _ => settled false := by
  refine Upholds.bind (Upholds.silent fun _ => rfl) fun state => ?_
  split
  · exact loadImage_keeps settings files path
  · refine Upholds.bind reset_keeps fun answer => ?_
    cases answer with
    | error error => exact Upholds.pure fun _ => id
    | ok _ => exact loadImage_keeps settings files path

theorem attach_keeps (files : Files.FileSystem) (path : String) (importing : Bool) :
    Keeps P (World.attach files path importing : Script (World ε τ) _) fun _ => P := by
  unfold World.attach
  split
  · refine Upholds.bind (edit_keeps (fun _ => rfl) fun _ => rfl) fun _ => ?_
    exact Upholds.bind (emit_keeps rfl) fun _ => Upholds.pure fun _ => id
  · refine Upholds.bind (edit_keeps (fun _ => rfl) fun _ => rfl) fun _ => ?_
    refine Upholds.bind (edit_keeps (fun _ => rfl) fun _ => rfl) fun _ => ?_
    exact Upholds.bind (emit_keeps rfl) fun _ => Upholds.pure fun _ => id

theorem openSource_keeps (settings : Settings) (files : Files.FileSystem) (source : String)
    (importing : Bool) :
    Keeps (settled false)
      (World.openSource settings files source importing : Script (World ε τ) _)
      fun _ => settled false := by
  unfold World.openSource
  split
  · exact fail_keeps _
  · refine Upholds.bind (load_keeps _ _ _) fun answer => ?_
    cases answer with
    | error error => exact Upholds.pure fun _ => id
    | ok entry => exact Upholds.bind (attach_keeps _ _ _) fun _ => Upholds.pure fun _ => id

theorem addBreakpoint_keeps (address : UInt32) :
    Keeps P (World.addBreakpoint address : Script (World ε τ) _) fun _ => P := by
  refine Upholds.bind (setBreakpoint_keeps address) fun answer => ?_
  cases answer with
  | error error => exact fail_keeps _
  | ok _ => exact Upholds.pure fun _ => id

/-- Every request keeps the record. -/
theorem script_keeps (settings : Settings) (request : Session.Request) :
    Keeps (settled false) (script settings request : Script (World ε τ) _)
      fun _ => settled false := by
  have hforget : ∀ {β : Type} {c : Script (World ε τ) (Except SessionError β)},
      Keeps (settled false) c (fun _ => settled false) →
      Keeps (settled false) (forget c) fun _ => settled false :=
    fun h => Upholds.bind h fun _ => Upholds.pure fun _ => id
  cases request with
  | load files path => exact hforget (load_keeps _ _ _)
  | openSource files source importing => exact hforget (openSource_keeps _ _ _ _)
  | attach files path importing =>
    exact Upholds.bind (attach_keeps _ _ _) fun _ => Upholds.pure fun _ => id
  | step => exact hforget step_keeps
  | run => exact run_keeps
  | stop => exact powerDownTo_keeps (by simp)
  | powerOff => exact powerDownTo_keeps (by simp)
  | reset => exact reset_keeps
  | addBreakpoint address => exact hforget (addBreakpoint_keeps address)
  | editWatches update =>
    exact Upholds.bind (edit_keeps (fun _ => rfl) fun _ => rfl) fun _ => Upholds.pure fun _ => id
  | refreshWatches =>
    exact Upholds.bind (edit_keeps (fun _ => rfl) fun _ => rfl) fun _ => Upholds.pure fun _ => id

end Ledger

/-! ## The values that the state takes -/

section Values

variable {α : Type} [DecidableEq α]

/-- Without its repetitions, a list that goes on with one more value goes on
with it unless it is the last one. -/
theorem destutter'_concat (l : List α) (a b : α) :
    (l ++ [b]).destutter' (· ≠ ·) a =
      if (l.destutter' (· ≠ ·) a).getLast? = some b then l.destutter' (· ≠ ·) a
      else l.destutter' (· ≠ ·) a ++ [b] := by
  induction l generalizing a with
  | nil => by_cases h : a = b <;> simp [h]
  | cons c l ih =>
    by_cases h : a = c
    · have hsame : ¬ a ≠ c := not_not_intro h
      rw [List.cons_append, List.destutter'_cons_neg _ hsame, List.destutter'_cons_neg _ hsame]
      exact ih a
    · obtain ⟨d, rest, hd⟩ := List.exists_cons_of_ne_nil (List.destutter'_ne_nil l (· ≠ ·) (a := c))
      rw [List.cons_append, List.destutter'_cons_pos _ h, List.destutter'_cons_pos _ h, ih c, hd,
        List.getLast?_cons_cons]
      split <;> rfl

theorem destutter_concat {l : List α} (hl : l ≠ []) (b : α) :
    (l ++ [b]).destutter (· ≠ ·) =
      if (l.destutter (· ≠ ·)).getLast? = some b then l.destutter (· ≠ ·)
      else l.destutter (· ≠ ·) ++ [b] := by
  obtain ⟨a, rest, rfl⟩ := List.exists_cons_of_ne_nil hl
  exact destutter'_concat rest a b

end Values

namespace Ledger

/-- The values taken by the state are those told, or the present one is taken
and not yet told. -/
def Recounts (o : Ledger) (taken : List SessionState) : Prop :=
  o.told.getLast? = some o.state ∧ taken = o.told ∨
  o.told.getLast? ≠ some o.state ∧ taken = o.told ++ [o.state]

theorem Recounts.last {o : Ledger} {taken : List SessionState} (h : o.Recounts taken) :
    taken.getLast? = some o.state := by
  rcases h with ⟨hlast, rfl⟩ | ⟨-, rfl⟩
  · exact hlast
  · simp

/-- The step lemma. -/
theorem Recounts.step {o o' : Ledger} {values : List SessionState} (hvalues : values ≠ [])
    (h : o.Recounts (values.destutter (· ≠ ·))) (hstep : o.Faithful o') :
    o'.Recounts ((values ++ [o'.state]).destutter (· ≠ ·)) := by
  have hlast := h.last
  rw [destutter_concat hvalues]
  cases hstep with
  | same hstate htold =>
    rw [hstate, if_pos hlast, Recounts, hstate, htold]
    exact h
  | written htold hcurrent =>
    have htaken : values.destutter (· ≠ ·) = o.told := by
      rcases h with ⟨-, htaken⟩ | ⟨hnot, -⟩
      · exact htaken
      · exact absurd hcurrent hnot
    rw [htaken, Recounts, htold]
    split
    · rename_i hsame
      exact .inl ⟨hsame, rfl⟩
    · rename_i hother
      exact .inr ⟨hother, rfl⟩
  | told hstate htold hnew =>
    have htaken : values.destutter (· ≠ ·) = o.told ++ [o.state] := by
      rcases h with ⟨hcurrent, -⟩ | ⟨-, htaken⟩
      · exact absurd hcurrent hnew
      · exact htaken
    rw [hstate, if_pos hlast, Recounts, hstate, htold]
    exact .inl ⟨by simp, htaken⟩

end Ledger

/-! ## The record of a system -/

namespace System

open Ledger

variable {ε τ : Type} [Engine ε] [Threaded ε τ] {y y' : System ε τ}

/-- What holds at every moment. -/
structure Recorded (y : System ε τ) : Prop where
  sound : y.world.ledger.Sound
  serves : Serves (fun w => (settled false).holds w.ledger) Ledger.aspect.Promises y

/-- Every step of every thread is a faithful step of the record. -/
theorem Recorded.step (h : Recorded y) {thread : Thread} (hstep : Step thread y y') :
    y.world.ledger.Faithful y'.world.ledger ∧ Recorded y' := by
  have hstable : Stable World.Moves fun w : World ε τ => (settled false).holds w.ledger :=
    fun _ _ hw hmove => (settled false).stable _ _ hw hmove.ledger
  have hserves := h.serves.step hstep hstable
    (fun w request hw => script_keeps _ request w hw) fun _ _ _ hw => hw
  have hfaithful : y.world.ledger.Faithful y'.world.ledger ∧ y'.world.ledger.Sound := by
    by_cases howner : thread = .owner
    · subst howner
      rcases h.serves.promised hstep with hpromise | ⟨fresh, hsame⟩
      · exact ⟨hpromise.faithful, hpromise.sound h.sound⟩
      · rw [hsame]
        exact ⟨.same rfl rfl, h.sound⟩
    · exact (hstep.moves howner).ledger.faithful h.sound
  exact ⟨hfaithful.1, hfaithful.2, hserves⟩

theorem recorded_start (settings : Settings) (fresh : ε) :
    Recorded (start settings fresh : System ε τ) := by
  have hclean : (start settings fresh : System ε τ).world.ledger.Clean :=
    ⟨absurd_of_down rfl, fun _ => rfl⟩
  refine ⟨⟨absurd_of_down rfl, absurd_of_down rfl⟩, ?_, by simp [start]⟩
  exact fun _ => settled_any (settled_of_clean hclean rfl)

/-- The run lemma. -/
theorem recounts_of_course {settings : Settings} {fresh : ε} {ys : List (System ε τ)}
    (h : Course (start settings fresh) ys y) :
    Recorded y ∧ ys.map (·.world.session.state) ≠ [] ∧
    y.world.ledger.Recounts ((ys.map (·.world.session.state)).destutter (· ≠ ·)) := by
  induction h with
  | here => exact ⟨recorded_start settings fresh, by simp, .inl ⟨rfl, rfl⟩⟩
  | step _ hstep ih =>
    obtain ⟨hrecorded, hvalues, hrecounts⟩ := ih
    obtain ⟨hfaithful, hrecorded'⟩ := hrecorded.step hstep
    rw [List.map_append]
    exact ⟨hrecorded', by simp, hrecounts.step hvalues hfaithful⟩

/-- The states told to the observers, the first of which they know, are the
values that the state has had since the session was made, without
repetitions; only the present one may have been taken and not yet told.
Between two operations none is missing, and the last one told is the state
that whoever takes the lock finds. -/
theorem events_are_history {settings : Settings} {fresh : ε} {ys : List (System ε τ)}
    (h : Course (start settings fresh) ys y) :
    let taken := (ys.map (·.world.session.state)).destutter (· ≠ ·)
    let told := y.world.session.told
    (taken = told ∨ taken = told ++ [y.world.session.state]) ∧ told.IsChain (· ≠ ·) ∧
    (y.owner = .idle → y.world.locked = false →
      taken = told ∧ told.getLast? = some y.world.session.state) := by
  intro taken told
  obtain ⟨hrecorded, -, hrecounts⟩ := recounts_of_course h
  have hlag : taken = told ∨ taken = told ++ [y.world.session.state] :=
    hrecounts.imp And.right And.right
  have hchain : taken.IsChain (· ≠ ·) := List.isChain_destutter _ _
  refine ⟨hlag, ?_, fun hidle hopen => ?_⟩
  · rcases hlag with htaken | htaken
    · rw [← htaken]
      exact hchain
    · rw [htaken] at hchain
      exact hchain.left_of_append
  · have hsettled : (settled false).holds y.world.ledger := hrecorded.serves.idle hidle
    have hcurrent : told.getLast? = some y.world.session.state := hsettled.1.current hopen
    rcases hrecounts with ⟨-, htaken⟩ | ⟨hnot, -⟩
    · exact ⟨htaken, hcurrent⟩
    · exact absurd hcurrent hnot

/-- A session that was loaded, ran, and was found at rest by the polling
thread. -/
def foundAtRest : Session Simulator :=
  (Session.new {} (.blank 16)).after
    [.asked (.load emptyFiles ""), .asked .run, .turn, .poll]

theorem history_of_found_at_rest :
    ∃ (settings : Settings) (fresh : Simulator) (ys : List (System Simulator Simulator.Crew))
      (w : Scene), Course (start settings fresh) ys ⟨w, .idle⟩ ∧ w.snapshot = foundAtRest ∧
      (ys.map (·.world.session.state)).destutter (· ≠ ·) =
        [.unloaded, .loaded, .running, .halted] := by
  obtain ⟨w, hw, h⟩ := reachable_after {} 16
    [.asked (.load emptyFiles ""), .asked .run, .turn, .poll]
  have hsnapshot : w.snapshot = foundAtRest := hw.snapshot
  have htold : w.session.told = [.unloaded, .loaded, .running, .halted] := by
    show w.snapshot.told = _
    rw [hsnapshot]
    decide +kernel
  obtain ⟨settings, fresh, ys, -, hcourse⟩ := exists_course h
  obtain ⟨-, -, hidle⟩ := events_are_history hcourse
  obtain ⟨htaken, -⟩ := hidle rfl (World.not_locked hw)
  exact ⟨settings, fresh, ys, w, hcourse, hsnapshot, htaken.trans htold⟩

end System

end Monitor68
