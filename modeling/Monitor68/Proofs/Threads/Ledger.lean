import Monitor68.Proofs.Threads.Course
import Monitor68.Proofs.Threads.Reliance

/-!
# What is told about the state

A session tells its observers whenever its state becomes another one.
Two threads write the state, and neither writes and tells in one step.
The owner writes it under the lock and tells later; the polling thread
does both under the lock.

The `Ledger` of a world is the state, what was told about it, and what is
needed to know of the polling thread.  The order of the two threads rests
on three facts.  The polling thread writes only in the running state, and
only while it is alive.  The owner does not write while the polling thread
has written and not told, since the state is locked.  And the owner enters
the running state only when no polling thread is left, so there is none
that could end a state that was not told yet.
-/

namespace Monitor68

open Script

/-- The state that an event tells. -/
def SessionEvent.state? : SessionEvent → Option SessionState
  | .stateChanged state => some state
  | _ => none

/-- The states that observers know of.  They know the first one without being
told. -/
def Session.told {ε : Type} (s : Session ε) : List SessionState :=
  .unloaded :: s.events.filterMap (·.state?)

@[simp] theorem Session.told_emit {ε : Type} (s : Session ε) (event : SessionEvent) :
    (s.emit event).told = s.told ++ event.state?.toList := by
  cases h : event.state? <;> simp [told, emit, h]

@[simp] theorem Session.state_emit {ε : Type} (s : Session ε) (event : SessionEvent) :
    (s.emit event).state = s.state := rfl

/-- What was told of the state, and the cells that writing it depends on. -/
structure Ledger where
  told : List SessionState
  state : SessionState
  /-- Whether the polling thread has not finished. -/
  alive : Bool
  /-- Whether the polling thread has written the state and not told. -/
  announcing : Bool
  /-- Whether the owner holds the polling thread. -/
  held : Bool

def World.ledger {ε τ : Type} (w : World ε τ) : Ledger where
  told := w.session.told
  state := w.session.state
  alive := w.task.phase ≠ .finished
  announcing := w.locked
  held := w.task.held

namespace Ledger

/-! ## What the other threads do -/

/-- What a step of the engine or of the polling thread does to the ledger. -/
inductive Moves (o o' : Ledger) : Prop where
  | stay (h : o' = o)
  | die (hopen : o.announcing = false) (h : o' = { o with alive := false })
  | halt (halive : o.alive = true) (hopen : o.announcing = false) (hstate : o.state = .running)
      (h : o' = { o with state := .halted, announcing := true })
  | tell (hannouncing : o.announcing = true)
      (h : o' = { o with told := o.told ++ [.halted], announcing := false })

end Ledger

namespace World

section Polling

variable {ε τ : Type} {w : World ε τ}

/-- A polling thread that has ended does not lock the state. -/
theorem unlocked_of_finished (h : w.task.phase = .finished) : w.locked = false := by
  simp [locked, h]

variable [Engine ε]

theorem ledger_tick (hphase : w.task.phase = .ticking) : w.ledger.Moves w.tick.ledger := by
  simp only [tick]
  cases hplace : w.place with
  | refreshing =>
    exact .stay (by simp [ledger, locked, hphase, hplace, Session.refreshWatches, Session.told])
  | sending view =>
    exact .stay (by simp [ledger, locked, hphase, hplace, SessionEvent.state?])
  | checking =>
    simp only
    split
    · exact .stay (by simp [ledger, locked, hphase, hplace, RepeatingTask.endTick])
    · exact .stay (by simp [ledger, locked, hphase, hplace])
  | closing =>
    simp only
    split
    · rename_i hstate
      exact .halt (by simp [ledger, hphase]) (by simp [ledger, locked, hplace]) hstate
        (by simp [ledger, locked, hphase, Session.told])
    · exact .stay (by simp [ledger, locked, hphase, hplace])
  | announcing =>
    exact .tell (by simp [ledger, locked, hphase, hplace])
      (by simp [ledger, locked, hphase, SessionEvent.state?])
  | leaving =>
    exact .die (by simp [ledger, locked, hplace])
      (by simp [ledger, locked, hphase, hplace, RepeatingTask.endTick])

/-- The polling thread moves as listed. -/
theorem ledger_poll (h : w.task.phase ≠ .finished) : w.ledger.Moves w.poll.ledger := by
  unfold poll
  cases hphase : w.task.phase with
  | finished => exact absurd hphase h
  | ticking => exact ledger_tick hphase
  | testing =>
    cases hcancelled : w.task.cancelled with
    | false => exact .stay (by simp [ledger, locked, hphase, RepeatingTask.test, hcancelled])
    | true =>
      exact .die (by simp [ledger, locked, hphase])
        (by simp [ledger, locked, hphase, RepeatingTask.test, hcancelled])
  | waiting =>
    cases hsignalled : w.task.signalled with
    | false => exact .stay (by simp [ledger, locked, hphase, RepeatingTask.wake, hsignalled])
    | true =>
      exact .die (by simp [ledger, locked, hphase])
        (by simp [ledger, locked, hphase, RepeatingTask.wake, hsignalled])

theorem Moves.ledger [Threaded ε τ] {w w' : World ε τ} (h : World.Moves w w') :
    w.ledger.Moves w'.ledger := by
  cases h with
  | engine hmove => exact .stay rfl
  | poll hphase => exact ledger_poll hphase

end Polling

end World

namespace Ledger

/-! ## What may be done to the ledger -/

/-- One step of a record that leaves nothing out: nothing changes, or the
state is written when all that was known was told, or a state that was not
yet told is told. -/
inductive Faithful (o o' : Ledger) : Prop where
  | same (hstate : o'.state = o.state) (htold : o'.told = o.told)
  | written (htold : o'.told = o.told) (hlast : o.told.getLast? = some o.state)
  | told (hstate : o'.state = o.state) (htold : o'.told = o.told ++ [o.state])
      (hnew : o.told.getLast? ≠ some o.state)

/-- What holds at every moment: a polling thread that has written the state
has ended a running state that was told, and no other one can be ended. -/
structure Sound (o : Ledger) : Prop where
  announced : o.announcing = true → o.state = .halted ∧ o.told.getLast? = some .running
  running : o.alive = true → o.announcing = false → o.state = .running →
    o.told.getLast? = some .running

/-- What the owner promises. -/
structure Yields (o o' : Ledger) : Prop where
  faithful : o.Faithful o'
  sound : o.Sound → o'.Sound

theorem Yields.refl (o : Ledger) : o.Yields o := ⟨.same rfl rfl, id⟩

theorem Moves.faithful {o o' : Ledger} (h : o.Moves o') (hsound : o.Sound) :
    o.Faithful o' ∧ o'.Sound := by
  obtain ⟨hannounced, hrunning⟩ := hsound
  cases h with
  | stay h =>
    rw [h]
    exact ⟨.same rfl rfl, hannounced, hrunning⟩
  | die hopen h =>
    rw [h]
    exact ⟨.same rfl rfl, hannounced, by simp⟩
  | halt halive hopen hstate h =>
    have hlast := hrunning halive hopen hstate
    rw [h]
    refine ⟨.written rfl (by rw [hstate, hlast]), fun _ => ⟨rfl, hlast⟩, by simp⟩
  | tell hannouncing h =>
    obtain ⟨hstate, hlast⟩ := hannounced hannouncing
    rw [h]
    refine ⟨.told rfl (by rw [hstate]) (by simp [hstate, hlast]), by simp, ?_⟩
    intro _ _ hrunning
    exact absurd (hstate.symm.trans hrunning) (by simp)

/-- The ledger as a part of a world. -/
def aspect {ε τ : Type} [Engine ε] [Threaded ε τ] :
    Aspect (World.Moves (ε := ε) (τ := τ)) Ledger where
  view := World.ledger
  Moves := Moves
  Yields := Yields
  moves := World.Moves.ledger
  yields_refl := Yields.refl

/-! ## What the owner relies on -/

/-- All was told, or it is the polling thread that still has to tell. -/
structure Clean (o : Ledger) : Prop where
  announced : o.announcing = true → o.state = .halted ∧ o.told.getLast? = some .running
  current : o.announcing = false → o.told.getLast? = some o.state

theorem Clean.moved {o o' : Ledger} (h : o.Clean) (hmove : o.Moves o') : o'.Clean := by
  obtain ⟨hannounced, hcurrent⟩ := h
  cases hmove with
  | stay h =>
    rw [h]
    exact ⟨hannounced, hcurrent⟩
  | die hopen h =>
    rw [h]
    exact ⟨hannounced, hcurrent⟩
  | halt halive hopen hstate h =>
    rw [h]
    exact ⟨fun _ => ⟨rfl, hstate ▸ hcurrent hopen⟩, by simp⟩
  | tell hannouncing h =>
    obtain ⟨hstate, -⟩ := hannounced hannouncing
    rw [h]
    exact ⟨by simp, fun _ => by simp [hstate]⟩

/-- The polling thread neither comes to life nor is let go of by itself. -/
theorem Moves.keeps {o o' : Ledger} (h : o.Moves o') :
    (o'.alive = true → o.alive = true) ∧ o'.held = o.held := by
  cases h with
  | stay h | halt _ _ _ h | tell _ h => rw [h]; exact ⟨id, rfl⟩
  | die _ h => rw [h]; exact ⟨by simp, rfl⟩

/-- All was told, or is about to be told by the polling thread. -/
def clean : Reliable Moves where
  holds := Clean
  stable _ _ h hmove := h.moved hmove

/-- Besides, the owner holds the polling thread as long as it lives, and
perhaps it is known to have ended. -/
def settled (ended : Bool) : Reliable Moves where
  holds o := o.Clean ∧ (o.alive = true → o.held = true) ∧ (ended = true → o.alive = false)
  stable := by
    intro o o' ho hmove
    obtain ⟨hclean, hheld, hended⟩ := ho
    obtain ⟨halive, hkept⟩ := hmove.keeps
    refine ⟨hclean.moved hmove, fun h => hkept.trans (hheld (halive h)), fun h => ?_⟩
    exact Bool.eq_false_iff.2 fun hagain => Bool.eq_false_iff.1 (hended h) (halive hagain)

/-- The owner has written a state after another one that is the last to have
been told. -/
def pending (ended : Bool) (previous state : SessionState) : Reliable Moves where
  holds o := o.announcing = false ∧ o.told.getLast? = some previous ∧ o.state = state ∧
    (state = .running → o.alive = false) ∧ (o.alive = true → o.held = true) ∧
    (ended = true → o.alive = false)
  stable := by
    intro o o' ho hmove
    obtain ⟨hopen, hlast, hstate, hquiet, hheld, hended⟩ := ho
    cases hmove with
    | stay h =>
      rw [h]
      exact ⟨hopen, hlast, hstate, hquiet, hheld, hended⟩
    | die _ h =>
      rw [h]
      exact ⟨hopen, hlast, hstate, fun _ => rfl, by simp, fun _ => rfl⟩
    | halt halive _ hrunning _ =>
      -- The state may be the running one only if no polling thread is left to end it.
      rw [hquiet (hstate.symm.trans hrunning)] at halive
      exact absurd halive Bool.false_ne_true
    | tell hannouncing _ =>
      rw [hopen] at hannouncing
      exact absurd hannouncing Bool.false_ne_true

/-! ## What the owner does -/

section Owner

variable {o : Ledger} {ended : Bool} {previous state : SessionState}

/-- A flag that is down is not up. -/
theorem absurd_of_down {flag : Bool} {A : Prop} (hdown : flag = false) (hup : flag = true) : A :=
  absurd (hdown.symm.trans hup) Bool.false_ne_true

/-- The owner writes a state while the state is not locked.  The running state
is written only without a polling thread. -/
theorem write (h : (settled ended).holds o) (hopen : o.announcing = false)
    (hrunning : state = .running → ended = true) :
    o.Yields { o with state } ∧ (pending ended o.state state).holds { o with state } := by
  obtain ⟨hclean, hheld, hended⟩ := h
  have hlast := hclean.current hopen
  have hquiet : state = .running → o.alive = false := fun h => hended (hrunning h)
  refine ⟨⟨.written rfl hlast, fun _ => ⟨absurd_of_down hopen, ?_⟩⟩,
    hopen, hlast, rfl, hquiet, hheld, hended⟩
  -- A running state that is written and not told would have to be safe from a live thread.
  intro halive _ hstate
  exact absurd_of_down (hquiet hstate) halive

/-- The owner tells the state that it has written. -/
theorem tell (h : (pending ended previous state).holds o) (hother : previous ≠ state) :
    o.Yields { o with told := o.told ++ [state] } ∧
      (settled ended).holds { o with told := o.told ++ [state] } := by
  obtain ⟨hopen, hlast, hstate, -, hheld, hended⟩ := h
  have hcurrent : (o.told ++ [state]).getLast? = some o.state := by simp [hstate]
  have hnew : o.told.getLast? ≠ some o.state := by simpa [hlast, hstate] using hother
  refine ⟨⟨.told rfl (by rw [hstate]) hnew, fun _ => ⟨absurd_of_down hopen, ?_⟩⟩,
    ⟨absurd_of_down hopen, fun _ => hcurrent⟩, hheld, hended⟩
  intro _ _ hrunning
  exact hcurrent.trans (congrArg some hrunning)

/-- A state that is the last one told needs no telling. -/
theorem settled_of_same (h : (pending ended state state).holds o) : (settled ended).holds o := by
  obtain ⟨hopen, hlast, hstate, -, hheld, hended⟩ := h
  exact ⟨⟨absurd_of_down hopen, fun _ => by rw [hlast, hstate]⟩, hheld, hended⟩

/-- Once the polling thread has ended nothing is open. -/
theorem settled_of_clean (h : o.Clean) (hdead : o.alive = false) : (settled true).holds o :=
  ⟨h, absurd_of_down hdead, fun _ => hdead⟩

/-- The owner starts a polling thread when there is none. -/
theorem start (h : (settled true).holds o) (hopen : o.announcing = false) :
    o.Yields { o with alive := true, announcing := false, held := true } ∧
      (settled false).holds { o with alive := true, announcing := false, held := true } := by
  obtain ⟨hclean, -, -⟩ := h
  have hlast := hclean.current hopen
  refine ⟨⟨.same rfl rfl, fun _ => ⟨absurd_of_down rfl, fun _ _ hrunning => ?_⟩⟩,
    ⟨absurd_of_down rfl, fun _ => hlast⟩, fun _ => rfl, by simp⟩
  exact hlast.trans (congrArg some hrunning)

theorem settled_any (h : (settled ended).holds o) : (settled false).holds o :=
  ⟨h.1, h.2.1, by simp⟩

end Owner

end Ledger

end Monitor68
