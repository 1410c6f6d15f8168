import Monitor68.Proofs.Threads.Agreement
import Monitor68.Proofs.Threads.Conversation
import Monitor68.Proofs.Threads.Reliance

/-!
# A reset is a fresh start

A reset ends the polling, powers the engine down, and takes another
engine.  It forgets the breakpoints and the listing and keeps the watched
variables, of which at most the values have changed.  Whatever the history
of the session, what is left then is a session that has just been made,
but for the variables: `reset_is_fresh_start` says that no conversation
tells the two apart, under any schedule of the threads.

The argument has three parts.  What the other threads leave alone and a
reset keeps is the `Estate` of a session.  What a reset puts in place of
the rest is its `Outfit`, and it stays as it is, since a fresh engine has
no threads and the polling thread has finished.  And two sessions that
agree in all this resemble each other.
-/

namespace Monitor68

open Script Session

/-! ## What is kept -/

/-- A variable without its value. -/
def Watch.plain (v : Watch) : Watch := { v with value := "" }

/-- The variables without their values. -/
def WatchList.plain (w : WatchList) : WatchList := { w with watches := w.watches.map Watch.plain }

/-- To bring the values up to date changes nothing but the values. -/
theorem WatchList.plain_refresh {ε : Type} [Engine ε] (w : WatchList) (e : ε) :
    (w.refresh e).plain = w.plain := by
  simp [plain, refresh, evaluate, refreshed, Watch.plain, Function.comp_def]

/-- What the other threads leave alone, and whether the owner holds a polling
thread. -/
structure Estate (ε : Type) where
  settings : Settings
  fresh : ε
  watches : WatchList
  held : Bool

namespace World

variable {ε τ : Type} [Engine ε]

def estate (w : World ε τ) : Estate ε where
  settings := w.session.settings
  fresh := w.session.fresh
  watches := w.session.watches.plain
  held := w.task.held

theorem estate_poll (w : World ε τ) : w.poll.estate = w.estate := by
  obtain ⟨state, watches, told, task, place, hpoll, hwatches, -, hheld⟩ := w.poll_frame
  have hplain : watches.plain = w.session.watches.plain := by
    rcases hwatches with rfl | rfl
    · rfl
    · exact WatchList.plain_refresh _ _
  simp only [hpoll, estate, hplain, hheld]

/-- To go to a state does not touch a part that shows neither the state nor
the events. -/
theorem enter_keeps [Threaded ε τ] {ω : Type} {A : Aspect (Moves (ε := ε) (τ := τ)) ω}
    {P : Reliable A.Moves}
    (hview : ∀ (w : World ε τ) (state : SessionState) (events : List SessionEvent),
      A.view { w with session := { w.session with state, events } } = A.view w)
    (state : SessionState) : A.Upholds P (enter state) fun _ => P := by
  refine Aspect.Upholds.bind (.silent fun w => hview w _ _) fun previous => ?_
  split
  · exact .pure fun _ => id
  · exact .silent fun w => hview w _ _

theorem Moves.estate [Threaded ε τ] {w w' : World ε τ} (h : Moves w w') :
    w'.estate = w.estate := by
  cases h with
  | engine hmove => rfl
  | poll hphase => exact w.estate_poll

end World

namespace Estate

variable {ε τ α : Type} [Engine ε] [Threaded ε τ]

/-- The other threads leave the estate alone. -/
def Moves (o o' : Estate ε) : Prop := o' = o

/-- The estate as a part of a world. -/
def aspect : Aspect (World.Moves (ε := ε) (τ := τ)) (Estate ε) where
  view := World.estate
  Moves := Moves
  Yields _ _ := True
  moves := World.Moves.estate
  yields_refl _ := trivial

/-- The estate is a certain one. -/
def exactly (o : Estate ε) : Reliable (Moves (ε := ε)) where
  holds o' := o' = o
  stable _ _ h hmove := hmove.trans h

open World Aspect

/-- Once it is looked at, whether a polling thread is held is known, and in
the end none is. -/
theorem stopPolling_frees (o : Estate ε) :
    aspect.Upholds (exactly o) (stopPolling : Script (World ε τ) Unit)
      fun _ => exactly { o with held := false } := by
  refine Upholds.bind (M := fun held => exactly { o with held }) (Upholds.look fun w hw => ?_)
    fun held => ?_
  · have ho : w.estate = o := hw
    rw [← ho]
    exact rfl
  cases held with
  | false => exact Upholds.pure fun _ => id
  | true =>
    rw [if_pos rfl]
    refine Upholds.bind (Upholds.silent fun _ => rfl) fun _ => ?_
    refine Upholds.bind (M := fun _ => exactly { o with held := false })
      (Upholds.once fun w hw _ => ⟨trivial, ?_⟩) fun _ => Upholds.silent fun _ => rfl
    have ho : w.estate = { o with held := true } := hw
    show { w.estate with held := false } = { o with held := false }
    rw [ho]

theorem fail_keeps_estate {P : Reliable (Moves (ε := ε))} (error : SessionError) :
    aspect.Upholds P (World.fail error : Script (World ε τ) (Except SessionError α)) fun _ => P :=
  Upholds.bind (Upholds.silent fun _ => rfl) fun _ => Upholds.pure fun _ => id

/-- A reset keeps the estate and holds no polling thread in the end. -/
theorem reset_frees (o : Estate ε) :
    aspect.Upholds (exactly o) (World.reset : Script (World ε τ) _)
      fun _ => exactly { o with held := false } := by
  have hdown : aspect.Upholds (exactly o) (World.powerDown : Script (World ε τ) _)
      fun _ => exactly { o with held := false } := by
    refine Upholds.bind (stopPolling_frees o) fun _ => ?_
    refine Upholds.bind (Upholds.beside (fun _ _ => rfl) fun _ _ => rfl) fun answer => ?_
    split
    · exact Upholds.pure fun _ => id
    · exact fail_keeps_estate _
    · exact Upholds.pure fun _ => id
  refine Upholds.bind hdown fun answer => ?_
  split
  · exact Upholds.pure fun _ => id
  · refine Upholds.bind (Upholds.silent fun _ => rfl) fun _ => ?_
    refine Upholds.bind (Upholds.silent fun _ => rfl) fun _ => ?_
    refine Upholds.bind (Upholds.silent fun _ => rfl) fun _ => ?_
    exact Upholds.bind (World.enter_keeps (fun _ _ _ => rfl) _) fun _ => Upholds.pure fun _ => id

end Estate

/-! ## What is put in its place -/

/-- What a session works with. -/
structure Outfit where
  fresh : Simulator
  machine : Simulator.Manned
  breakpoints : TrackedBreakpoints
  listing : Option Listing

def World.outfit (w : Scene) : Outfit where
  fresh := w.session.fresh
  machine := w.machine
  breakpoints := w.session.breakpoints
  listing := w.session.listing

namespace Outfit

/-- The threads of the engine are all that moves by itself. -/
def Moves (o o' : Outfit) : Prop :=
  o' = o ∨ ∃ machine, o.machine.Moves machine ∧ o' = { o with machine }

theorem outfit_poll (w : Scene) : w.poll.outfit = w.outfit := by
  obtain ⟨state, watches, told, task, place, hpoll, -⟩ := w.poll_frame
  rw [hpoll]
  rfl

/-- The outfit as a part of a world. -/
def aspect : Aspect (World.Moves (ε := Simulator)) Outfit where
  view := World.outfit
  Moves := Moves
  Yields _ _ := True
  moves h := by
    cases h with
    | engine hmove => exact .inr ⟨_, hmove, rfl⟩
    | poll hphase => exact .inl (outfit_poll _)
  yields_refl _ := trivial

def anything : Reliable Moves := ⟨fun _ => True, fun _ _ _ _ => trivial⟩

/-- The engine has just been made, and perhaps nothing is left of breakpoints
and of the listing.  A fresh engine has no threads, so it stays as it is. -/
def renewed (unbroken unlisted : Bool) : Reliable Moves where
  holds o := o.machine = { engine := o.fresh, threads := {} } ∧
    (unbroken = true → o.breakpoints = .empty) ∧ (unlisted = true → o.listing = none)
  stable := by
    intro o o' ho hmove
    rcases hmove with rfl | ⟨machine, ⟨thread, phase, hphase, -⟩, -⟩
    · exact ho
    · rw [ho.1] at hphase
      simp at hphase

open World Aspect

/-- A reset that succeeds leaves nothing of what the session worked with. -/
theorem reset_renews :
    aspect.Upholds anything (World.reset : Script Scene _) fun answer =>
      ⟨fun o => answer = .ok () → (renewed true true).holds o, fun _ _ h hmove hok =>
        (renewed true true).stable _ _ (h hok) hmove⟩ := by
  have hdown : aspect.Upholds anything (World.powerDown : Script Scene _) fun _ => anything :=
    fun w _ => (Ensures.trivial _ w).mono (fun _ _ => id) fun _ _ => id
  refine Upholds.bind hdown fun answer => ?_
  split
  · exact Upholds.pure fun _ _ hok => by cases hok
  · refine Upholds.bind (M := fun _ => renewed false false)
      (Upholds.once fun w _ _ => ⟨trivial, ?_⟩) fun _ => ?_
    · exact ⟨rfl, by simp, by simp⟩
    refine Upholds.bind (M := fun _ => renewed true false)
      (Upholds.once fun w hw _ => ⟨trivial, ?_⟩) fun _ => ?_
    · exact ⟨hw.1, fun _ => rfl, by simp⟩
    refine Upholds.bind (M := fun _ => renewed true true)
      (Upholds.once fun w hw _ => ⟨trivial, ?_⟩) fun _ => ?_
    · exact ⟨hw.1, hw.2.1, fun _ => rfl⟩
    exact Upholds.bind (World.enter_keeps (fun _ _ _ => rfl) _) fun _ => Upholds.pure fun _ h _ => h

end Outfit

/-! ## The fresh start -/

namespace World

/-- A session that has just been made and watches some variables. -/
def anew (settings : Settings) (fresh : Simulator) (watches : WatchList) : Scene where
  session := { Session.new settings fresh with watches }
  threads := Threaded.fresh Simulator

/-- A world resembles one that has just been made if nothing is left of what it
worked with and nobody polls it. -/
theorem resembles_anew {w : Scene} (hmachine : w.machine = ⟨w.session.fresh, {}⟩)
    (hbreakpoints : w.session.breakpoints = .empty) (hlisting : w.session.listing = none)
    (hstate : w.session.state = .unloaded) (hphase : w.task.phase = .finished)
    (hheld : w.task.held = false) :
    Resembles w.session.events w
      (anew w.session.settings w.session.fresh w.session.watches) where
  session := by
    have hengine : w.session.engine = w.session.fresh := congrArg Machine.engine hmachine
    refine ⟨w.session.polling, ?_⟩
    generalize w.session = s at *
    obtain ⟨settings, fresh, engine, state, breakpoints, watches, listing, polling, events⟩ := s
    simp only at hengine hbreakpoints hlisting hstate
    subst hengine hbreakpoints hlisting hstate
    simp [anew, Session.new, Session.behind, TrackedBreakpoints.empty]
  threads := congrArg Machine.threads hmachine
  task := .inr ⟨⟨hphase, hheld⟩, rfl, rfl⟩
  place := by simp [hphase]

/-- No conversation tells the two sessions apart under any schedule: the owner
gets the same replies at the same turns, and all that is to be seen of the
sessions is the same, but for some events that one of them told before. -/
def Indistinguishable (before : List SessionEvent) (settings : Settings) (w w' : Scene) : Prop :=
  ∀ (inquiries : List Inquiry) (turns : List Turn),
    let here := play (w, converse settings inquiries) turns
    let there := play (w', converse settings inquiries) turns
    here.2 = there.2 ∧
      here.1.snapshot = { there.1.snapshot with events := before ++ there.1.snapshot.events }

theorem Resembles.indistinguishable {before : List SessionEvent} {w w' : Scene}
    (h : Resembles before w w') (settings : Settings) :
    Indistinguishable before settings w w' := by
  intro inquiries turns
  obtain ⟨hworlds, hrest⟩ := h.play (converse_oblivious settings inquiries) turns
  exact ⟨hrest, hworlds.snapshot⟩

/-- Whatever has happened to a session, a reset succeeds.  It leaves no
polling thread, no listing, no breakpoint and a fresh engine, and the watched
variables are those from before but for their values.  From then on the session cannot be
told from one that has just been made with the same settings, the same
fresh engine, and the variables as they are. -/
theorem reset_is_fresh_start {w z : Scene} {answer : Except SessionError Unit}
    (h : System.Reachable ⟨w, .idle⟩)
    (hreset : Leads Moves (script w.session.settings .reset) w answer z) :
    answer = .ok () ∧
      (z.task.phase = .finished ∧ z.task.held = false ∧ z.session.listing = none ∧
        z.session.breakpoints = .empty ∧ z.session.engine = w.session.fresh) ∧
      z.session.watches.plain = w.session.watches.plain ∧
      Indistinguishable z.session.events w.session.settings z
        (anew w.session.settings w.session.fresh z.session.watches) := by
  have hsettled := (System.good_of_reachable h).idle rfl
  have hended := (reset_session_meets w ⟨hsettled, by simp, by simp, by simp⟩).of_leads hreset
  have hkept := (Estate.reset_frees w.estate w rfl).of_leads hreset
  have hrenewed := (Outfit.reset_renews w trivial).of_leads hreset
  obtain ⟨hok, ⟨-, hphase, hstate⟩, -⟩ := hended
  have hphase : z.task.phase = .finished := hphase
  have hstate : z.session.state = .unloaded := hstate _ rfl
  obtain ⟨hmachine, hbreakpoints, hlisting⟩ := hrenewed hok
  have hbreakpoints : z.session.breakpoints = .empty := hbreakpoints rfl
  have hlisting : z.session.listing = none := hlisting rfl
  have hkept : z.estate = { w.estate with held := false } := hkept
  have hheld : z.task.held = false := congrArg Estate.held hkept
  have hresembles := resembles_anew hmachine hbreakpoints hlisting hstate hphase hheld
  have hsettings : z.session.settings = w.session.settings := congrArg Estate.settings hkept
  have hfresh : z.session.fresh = w.session.fresh := congrArg Estate.fresh hkept
  rw [hsettings, hfresh] at hresembles
  have hengine : z.session.engine = w.session.fresh :=
    (congrArg Machine.engine hmachine).trans hfresh
  exact ⟨hok, ⟨hphase, hheld, hlisting, hbreakpoints, hengine⟩, congrArg Estate.watches hkept,
    hresembles.indistinguishable _⟩

/-- A session that runs, is polled, and has a breakpoint. -/
theorem reset_of_running_is_fresh_start : ∃ w z : Scene, System.Reachable ⟨w, .idle⟩ ∧
    w.session.state = .running ∧ w.task.isActive = true ∧
    w.session.breakpoints.list.length = 1 ∧
    Leads Moves (script w.session.settings .reset) w (.ok ()) z ∧
    Indistinguishable z.session.events w.session.settings z
      (anew w.session.settings w.session.fresh z.session.watches) := by
  obtain ⟨w, hw, h⟩ := System.reachable_after {} 0x8010
    [.asked (.load System.emptyFiles ""), .asked (.addBreakpoint 0x8008), .asked .run, .turn]
  have hrest : w.snapshot.fresh.running = false := by
    rw [hw.snapshot]
    decide +kernel
  have hanswer : (Session.Request.perform w.snapshot .reset).1 = .ok () := by
    rw [hw.snapshot]
    decide +kernel
  have hstate : w.snapshot.state = .running := by
    rw [hw.snapshot]
    decide +kernel
  have hpolled : w.snapshot.polling = true := by
    rw [hw.snapshot]
    decide +kernel
  have hbreakpoints : w.snapshot.breakpoints.list.length = 1 := by
    rw [hw.snapshot]
    decide +kernel
  have hshows : w.Shows w.snapshot := ⟨rfl, hw.crew, hw.task⟩
  obtain ⟨z, -, hleads⟩ := runs_script hrest .reset w hshows
  rw [hanswer] at hleads
  obtain ⟨-, -, -, hsame⟩ := reset_is_fresh_start h hleads
  exact ⟨w, z, h, hstate, hpolled, hbreakpoints, hleads, hsame⟩

end World

end Monitor68
