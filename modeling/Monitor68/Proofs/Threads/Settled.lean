import Monitor68.Proofs.Threads.Outline

/-!
# Settled sessions

Between two operations a session is `Settled`: its state agrees with the
engine, and if it is in the running state a polling thread attends to it.
While an operation is under way, less is true.  The polling thread is told
to stop before the engine is powered down, and the engine is started
before the state follows and before a polling thread is there.

The assertions here are the stages of the operations.  A settled session
that is about to power down goes through `stopping` to `alone`, in which
there is no polling thread any more and nothing but the engine's own
threads can move.  `alone` leads back to a settled session as soon as the
state says what the engine is.
-/

namespace Monitor68

open Script Simulator

namespace Outline

/-! ## The invariants -/

/-- The polling thread has found the engine halted. -/
def Noticed (o : Outline) : Prop :=
  o.phase = .ticking ∧ (o.place = .closing ∨ o.place = .announcing ∨ o.place = .leaving)

/-- The polling thread has dealt with the state. -/
def Closed (o : Outline) : Prop :=
  o.phase = .ticking ∧ (o.place = .announcing ∨ o.place = .leaving)

/-- What holds at every moment: the polling thread is right about the engine
and about the state for as long as its tick lasts. -/
structure Sound (o : Outline) : Prop where
  noticed : o.Noticed → o.running = false
  closed : o.Closed → o.state ≠ .running

/-- The state agrees with the engine. -/
structure Coherent (o : Outline) : Prop extends Sound o where
  fresh : o.fresh = true
  dark : o.powered = false → o.running = false ∧ o.phase = .finished
  lit : o.state = .loaded ∨ o.state = .stepping ∨ o.state = .running → o.powered = true
  unlit : o.state = .unloaded ∨ o.state = .poweredOff → o.powered = false
  going : o.running = true → o.state = .running

/-- Besides, a running session is attended by a polling thread that nobody
has told to stop. -/
structure Settled (o : Outline) : Prop extends Coherent o where
  attended : o.state = .running → o.phase ≠ .finished
  kept : o.phase ≠ .finished → o.held = true ∧ o.cancelled = false ∧ o.signalled = false

theorem Sound.stable : Stable Moves Sound := by
  refine stable_of (fun o h => ⟨fun _ => rfl, h.closed⟩) ?_
  intro o o' ho hpoll
  obtain ⟨hnoticed, hclosed⟩ := ho
  constructor <;> cases hpoll <;> simp_all [Noticed, Closed]

theorem Coherent.stable : Stable Moves Coherent := by
  refine stable_of (fun o h => ?_) ?_
  · exact ⟨⟨fun _ => rfl, h.closed⟩, h.fresh, fun hp => ⟨rfl, (h.dark hp).2⟩, h.lit, h.unlit,
      by simp⟩
  · intro o o' h hpoll
    have hsound : o'.Sound := Sound.stable o o' h.toSound (.poll hpoll)
    obtain ⟨⟨hnoticed, hclosed⟩, hfresh, hdark, hlit, hunlit, hgoing⟩ := h
    refine ⟨hsound, ?_, ?_, ?_, ?_, ?_⟩ <;> cases hpoll <;> simp_all [Noticed]

theorem Settled.stable : Stable Moves Settled := by
  refine stable_of (fun o h => ?_) ?_
  · exact ⟨Coherent.stable o _ h.toCoherent .rest, h.attended, h.kept⟩
  · intro o o' h hpoll
    have hcoherent : o'.Coherent := Coherent.stable o o' h.toCoherent (.poll hpoll)
    have hclosed := h.closed
    obtain ⟨-, hattended, hkept⟩ := h
    refine ⟨hcoherent, ?_, ?_⟩ <;> cases hpoll <;> simp_all [Closed]

/-- To tell the polling thread to stop takes nothing from the agreement. -/
theorem Coherent.told {o : Outline} (h : o.Coherent) (held cancelled signalled : Bool) :
    Coherent { o with held, cancelled, signalled } :=
  ⟨⟨h.noticed, h.closed⟩, h.fresh, h.dark, h.lit, h.unlit, h.going⟩

theorem powered_stable (powered : Bool) : Stable Moves fun o => o.powered = powered :=
  stable_of (fun _ h => h) fun o o' h hpoll => by cases hpoll <;> exact h

theorem rest_stable : Stable Moves fun o => o.running = false :=
  stable_of (fun _ _ => rfl) fun o o' h hpoll => by cases hpoll <;> exact h

theorem finished_stable : Stable Moves fun o => o.phase = .finished :=
  stable_of (fun _ h => h) fun o o' h hpoll => by cases hpoll <;> simp_all

end Outline

namespace Assertion

/-- The session agrees with the engine, and perhaps the engine is known to be
powered, to be at rest, and the polling thread to have finished. -/
def settled (powered calm ended : Bool) : Assertion where
  holds o := o.Settled ∧ (powered = true → o.powered = true) ∧
    (calm = true → o.running = false) ∧ (ended = true → o.phase = .finished)
  stable := by
    intro o o' ho hmove
    obtain ⟨hsettled, hpowered, hcalm, hended⟩ := ho
    exact ⟨Outline.Settled.stable o o' hsettled hmove,
      fun h => Outline.powered_stable true o o' (hpowered h) hmove,
      fun h => Outline.rest_stable o o' (hcalm h) hmove,
      fun h => Outline.finished_stable o o' (hended h) hmove⟩

/-- The state agrees with the engine while the polling thread is made to
end. -/
def stopping (ended : Bool) : Assertion where
  holds o := o.Coherent ∧ (ended = true → o.phase = .finished)
  stable := by
    intro o o' ho hmove
    obtain ⟨hcoherent, hended⟩ := ho
    exact ⟨Outline.Coherent.stable o o' hcoherent hmove,
      fun h => Outline.finished_stable o o' (hended h) hmove⟩

/-- There is no polling thread, and perhaps the state is known. -/
def unattended (state : Option SessionState) : Assertion where
  holds o := o.fresh = true ∧ o.phase = .finished ∧ ∀ s, state = some s → o.state = s
  stable := Outline.stable_of (fun _ h => h) (by
    intro o o' ho hpoll
    obtain ⟨hfresh, hphase, hstate⟩ := ho
    cases hpoll <;> simp_all)

/-- Besides, the power is known, and perhaps that the engine is at rest. -/
def alone (powered calm : Bool) (state : Option SessionState) : Assertion where
  holds o := (unattended state).holds o ∧ o.powered = powered ∧
    (calm = true → o.running = false)
  stable := by
    intro o o' ho hmove
    obtain ⟨hunattended, hpowered, hcalm⟩ := ho
    exact ⟨(unattended state).stable o o' hunattended hmove,
      Outline.powered_stable powered o o' hpowered hmove,
      fun h => Outline.rest_stable o o' (hcalm h) hmove⟩

/-- What is true of a settled session with a powered engine at rest, apart
from the engine. -/
def engaged : Assertion where
  holds o := o.fresh = true ∧ (o.Closed → o.state ≠ .running) ∧
    (o.state = .running → o.phase ≠ .finished) ∧
    (o.phase ≠ .finished → o.held = true ∧ o.cancelled = false ∧ o.signalled = false) ∧
    o.state ≠ .unloaded ∧ o.state ≠ .poweredOff
  stable := Outline.stable_of (fun _ h => h) (by
    intro o o' ho hpoll
    obtain ⟨hfresh, hclosed, hattended, hkept, hunloaded, hoff⟩ := ho
    refine ⟨?_, ?_, ?_, ?_, ?_, ?_⟩ <;> cases hpoll <;> simp_all [Outline.Closed])

/-- A program was entered, which the state does not know yet, or the engine
is still down. -/
def entered {α ε : Type} : Except ε α → Assertion
  | .ok _ => alone true true none
  | .error _ => alone false true (some .unloaded)

theorem engaged_of_settled {o : Outline} {ended : Bool} (h : (settled true true ended).holds o) :
    engaged.holds o := by
  obtain ⟨hsettled, hpowered, -, -⟩ := h
  have hpowered : o.powered = true := hpowered rfl
  refine ⟨hsettled.fresh, hsettled.closed, hsettled.attended, hsettled.kept, ?_, ?_⟩
  · intro hstate
    rw [hsettled.unlit (.inl hstate)] at hpowered
    exact Bool.false_ne_true hpowered
  · intro hstate
    rw [hsettled.unlit (.inr hstate)] at hpowered
    exact Bool.false_ne_true hpowered

theorem settled_of_engaged {o : Outline} (h : engaged.holds o) (hpowered : o.powered = true)
    (hrest : o.running = false) : (settled true true false).holds o := by
  obtain ⟨hfresh, hclosed, hattended, hkept, hunloaded, hoff⟩ := h
  refine ⟨⟨⟨⟨fun _ => hrest, hclosed⟩, hfresh, ?_, fun _ => hpowered, ?_, ?_⟩,
    hattended, hkept⟩, fun _ => hpowered, fun _ => hrest, by simp⟩ <;> simp_all

theorem settled_any {o : Outline} {powered calm ended : Bool}
    (h : (settled powered calm ended).holds o) : (settled false false false).holds o :=
  ⟨h.1, by simp, by simp, by simp⟩

/-- A state that does not ask for power. -/
def Passive (state : SessionState) : Prop :=
  state ≠ .loaded ∧ state ≠ .stepping ∧ state ≠ .running

theorem passive_unloaded : Passive .unloaded := ⟨by simp, by simp, by simp⟩

/-- With the engine powered down and no polling thread the session agrees
with the engine in every passive state. -/
theorem settled_of_alone {o : Outline} {state : SessionState} (hstate : Passive state)
    (h : (alone false true (some state)).holds o) : (settled false false true).holds o := by
  obtain ⟨⟨hfresh, hphase, hst⟩, hpowered, hcalm⟩ := h
  have hs : o.state = state := hst state rfl
  have hrest : o.running = false := hcalm rfl
  refine ⟨⟨⟨⟨?_, ?_⟩, hfresh, fun _ => ⟨hrest, hphase⟩, ?_, fun _ => hpowered, ?_⟩, ?_, ?_⟩,
    by simp, by simp, fun _ => hphase⟩ <;> simp_all [Passive, Outline.Noticed, Outline.Closed]

/-- The state follows an engine that a program was entered into. -/
theorem settled_of_entered {o : Outline} (h : (alone true true none).holds o) :
    (settled false false false).holds { o with state := .loaded } := by
  obtain ⟨⟨hfresh, hphase, -⟩, hpowered, hcalm⟩ := h
  have hrest : o.running = false := hcalm rfl
  refine ⟨⟨⟨⟨fun _ => hrest, by simp⟩, hfresh, ?_, fun _ => hpowered, ?_, ?_⟩, by simp, ?_⟩,
    by simp, by simp, by simp⟩ <;> simp_all

/-- A polling thread that has just been started attends to a session that
runs. -/
theorem settled_of_started {o : Outline} (h : (alone true false (some .running)).holds o) :
    (settled false false false).holds
      { o with phase := .testing, held := true, cancelled := false, signalled := false } := by
  obtain ⟨⟨hfresh, -, hst⟩, hpowered, -⟩ := h
  have hs : o.state = .running := hst _ rfl
  refine ⟨⟨⟨⟨?_, ?_⟩, hfresh, ?_, fun _ => hpowered, ?_, fun _ => hs⟩, ?_, ?_⟩,
    by simp, by simp, by simp⟩ <;> simp_all [Outline.Noticed, Outline.Closed]

/-- An unloaded session has no polling thread, and its engine is down. -/
theorem alone_of_unloaded {o : Outline} (h : o.Settled) (hstate : o.state = .unloaded) :
    (alone false true (some .unloaded)).holds o := by
  have hpowered : o.powered = false := h.unlit (.inl hstate)
  obtain ⟨hrest, hphase⟩ := h.dark hpowered
  refine ⟨⟨h.fresh, hphase, ?_⟩, hpowered, fun _ => hrest⟩
  intro s hs
  rw [hstate, Option.some.inj hs]

end Assertion

end Monitor68
