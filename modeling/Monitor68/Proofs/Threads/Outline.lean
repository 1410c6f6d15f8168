import Monitor68.Proofs.Threads.Session

/-!
# What agreement is about

Whether a session agrees with its simulator depends on a few cells only:
the power and the running flag, the state of the session, and where the
polling thread is.  The `Outline` of a world is these cells.

`Outline.Moves` lists what the engine's threads and the polling thread can
do to them.  An `Assertion` is a property of outlines that these moves
keep, so the owner may rely on it between two of its steps.  What the
owner promises in return is `Yields`: while the polling thread is alive,
the owner neither moves it, nor sets the engine running, nor enters the
running state.
-/

namespace Monitor68

open Script Simulator

/-- The cells that agreement is about. -/
structure Outline where
  powered : Bool
  running : Bool
  state : SessionState
  /-- Whether the engine that a reset begins with is off and at rest. -/
  fresh : Bool
  phase : TaskPhase
  held : Bool
  cancelled : Bool
  signalled : Bool
  place : TickPlace

def World.outline (w : Scene) : Outline where
  powered := w.session.engine.powered
  running := w.session.engine.running
  state := w.session.state
  fresh := !w.session.fresh.powered && !w.session.fresh.running
  phase := w.task.phase
  held := w.task.held
  cancelled := w.task.cancelled
  signalled := w.task.signalled
  place := w.place

namespace Outline

/-! ## What the other threads do -/

/-- What a step of the polling thread does. -/
inductive Polls : Outline → Outline → Prop where
  | begin {o : Outline} (hphase : o.phase = .testing) (h : o.cancelled = false) :
      Polls o { o with phase := .ticking, place := .refreshing }
  | quit {o : Outline} (hphase : o.phase = .testing) (h : o.cancelled = true) :
      Polls o { o with phase := .finished, place := .refreshing }
  | refresh {o : Outline} {view : View} (hphase : o.phase = .ticking)
      (hplace : o.place = .refreshing) : Polls o { o with place := .sending view }
  | send {o : Outline} {view : View} (hphase : o.phase = .ticking)
      (hplace : o.place = .sending view) : Polls o { o with place := .checking }
  | goOn {o : Outline} (hphase : o.phase = .ticking) (hplace : o.place = .checking)
      (h : o.running = true) : Polls o { o with phase := .waiting }
  | notice {o : Outline} (hphase : o.phase = .ticking) (hplace : o.place = .checking)
      (h : o.running = false) : Polls o { o with place := .closing }
  | halt {o : Outline} (hphase : o.phase = .ticking) (hplace : o.place = .closing)
      (h : o.state = .running) : Polls o { o with state := .halted, place := .announcing }
  | pass {o : Outline} (hphase : o.phase = .ticking) (hplace : o.place = .closing)
      (h : o.state ≠ .running) : Polls o { o with place := .leaving }
  | tell {o : Outline} (hphase : o.phase = .ticking) (hplace : o.place = .announcing) :
      Polls o { o with place := .leaving }
  | leave {o : Outline} (hphase : o.phase = .ticking) (hplace : o.place = .leaving) :
      Polls o { o with phase := .finished }
  | wake {o : Outline} (hphase : o.phase = .waiting) (h : o.signalled = true) :
      Polls o { o with phase := .finished }
  | again {o : Outline} (hphase : o.phase = .waiting) (h : o.signalled = false) :
      Polls o { o with phase := .testing }

/-- What a step of the polling thread or of a thread of the engine does.  All
that matters about the engine's threads is that they may clear the running
flag. -/
inductive Moves : Outline → Outline → Prop where
  | execute {o : Outline} : Moves o o
  | rest {o : Outline} : Moves o { o with running := false }
  | poll {o o' : Outline} (h : o.Polls o') : Moves o o'

/-- A property is stable if an engine that comes to rest keeps it and the
polling thread keeps it. -/
theorem stable_of {P : Outline → Prop} (hrest : ∀ o, P o → P { o with running := false })
    (hpoll : ∀ o o', P o → o.Polls o' → P o') : Stable Moves P := by
  intro o o' h hmove
  cases hmove with
  | execute => exact h
  | rest => exact hrest o h
  | poll hp => exact hpoll o o' h hp

end Outline

theorem World.polls_tick {w : Scene} (hphase : w.task.phase = .ticking) :
    w.outline.Polls w.tick.outline := by
  simp only [World.tick]
  cases hplace : w.place with
  | refreshing => exact .refresh hphase hplace
  | sending view => exact .send hphase hplace
  | checking =>
    simp only
    split
    · rename_i hrunning
      have hmove := Outline.Polls.goOn (o := w.outline) hphase hplace hrunning
      simpa [World.outline, RepeatingTask.endTick, hplace] using hmove
    · rename_i hrunning
      exact .notice (o := w.outline) hphase hplace (Bool.eq_false_iff.2 hrunning)
  | closing =>
    simp only
    split
    · rename_i hstate
      exact .halt hphase hplace hstate
    · rename_i hstate
      exact .pass hphase hplace hstate
  | announcing => exact .tell hphase hplace
  | leaving =>
    have hmove := Outline.Polls.leave (o := w.outline) hphase hplace
    simpa [World.outline, RepeatingTask.endTick, hplace] using hmove

/-- The polling thread moves as listed. -/
theorem World.polls_poll {w : Scene} (h : w.task.phase ≠ .finished) :
    w.outline.Polls w.poll.outline := by
  unfold World.poll
  cases hphase : w.task.phase with
  | testing =>
    cases hcancelled : w.task.cancelled with
    | false =>
      have hmove := Outline.Polls.begin (o := w.outline) hphase hcancelled
      simpa [World.outline, RepeatingTask.test, hcancelled] using hmove
    | true =>
      have hmove := Outline.Polls.quit (o := w.outline) hphase hcancelled
      simpa [World.outline, RepeatingTask.test, hcancelled] using hmove
  | waiting =>
    cases hsignalled : w.task.signalled with
    | true =>
      have hmove := Outline.Polls.wake (o := w.outline) hphase hsignalled
      simpa [World.outline, RepeatingTask.wake, hsignalled] using hmove
    | false =>
      have hmove := Outline.Polls.again (o := w.outline) hphase hsignalled
      simpa [World.outline, RepeatingTask.wake, hsignalled] using hmove
  | finished => exact absurd hphase h
  | ticking => exact World.polls_tick hphase

theorem World.Moves.outline {w w' : Scene} (h : World.Moves w w') :
    w.outline.Moves w'.outline := by
  cases h with
  | poll hphase => exact .poll (World.polls_poll hphase)
  | @engine m hmove =>
    obtain ⟨hpowered, hrunning⟩ := Manned.Moves.keeps hmove
    have heq : (w.withMachine m).outline = { w.outline with running := m.engine.running } := by
      have hsame : m.engine.powered = w.session.engine.powered := hpowered
      simp only [World.outline, World.withMachine, hsame]
    rw [heq]
    cases hnow : m.engine.running with
    | false => exact .rest
    | true =>
      have hbefore : w.session.engine.running = true := hrunning hnow
      have hmove := Outline.Moves.execute (o := w.outline)
      simpa [World.outline, hbefore] using hmove

/-! ## Assertions -/

/-- What the owner may rely on while the other threads move. -/
structure Assertion where
  holds : Outline → Prop
  stable : Stable Outline.Moves holds

namespace Assertion

/-- An assertion under a condition that has nothing to do with the world. -/
def given (A : Prop) (P : Assertion) : Assertion where
  holds o := A ∧ P.holds o
  stable := P.stable.given A

theorem stable_world (P : Assertion) : Stable World.Moves fun w : Scene => P.holds w.outline :=
  fun _ _ h hmove => P.stable _ _ h hmove.outline

end Assertion

/-! ## What the owner promises -/

/-- A step of the owner.  Once the polling thread has finished, the owner may
start another one; before that it leaves the thread alone, does not set
the engine running, and does not enter the running state. -/
def Outline.Yields (o o' : Outline) : Prop :=
  o.phase = .finished ∧ (o'.phase = .finished ∨ o'.phase = .testing) ∨
  o'.phase = o.phase ∧ o'.place = o.place ∧ (o'.running = true → o.running = true) ∧
    (o'.state = .running → o.state = .running)

def Yields (w w' : Scene) : Prop := w.outline.Yields w'.outline

/-- A script that keeps what the owner promises and leads from one assertion
to another. -/
def Meets {α : Type} (P : Assertion) (c : Script Scene α) (Q : α → Assertion) : Prop :=
  ∀ w : Scene, P.holds w.outline →
    Ensures World.Moves Yields (fun a w => (Q a).holds w.outline) c w

namespace Meets

variable {α β : Type} {P P' : Assertion} {Q Q' : α → Assertion} {c : Script Scene α}

theorem pure {a : α} (h : ∀ o, P.holds o → (Q a).holds o) : Meets P (Pure.pure a) Q :=
  fun _ hw => .pure (Q a).stable_world (h _ hw)

theorem bind {M : α → Assertion} {Q : β → Assertion} {k : α → Script Scene β}
    (h : Meets P c M) (hk : ∀ a, Meets (M a) (k a) Q) : Meets P (c >>= k) Q :=
  fun w hw => (h w hw).bind fun a t ht => hk a t ht

theorem weaken (h : Meets P c Q) (hP : ∀ o, P'.holds o → P.holds o)
    (hQ : ∀ a o, (Q a).holds o → (Q' a).holds o) : Meets P' c Q' :=
  fun w hw => (h w (hP _ hw)).mono (fun _ _ => id) fun a t => hQ a t.outline

theorem once {ready : Scene → Bool} {f : Scene → α × Scene}
    (h : ∀ w : Scene, P.holds w.outline → ready w = true →
      Yields w (f w).2 ∧ (Q (f w).1).holds (f w).2.outline) : Meets P (Script.once ready f) Q :=
  fun _ hw => .once P.stable_world (fun a => (Q a).stable_world) hw h

/-- To look at the world keeps everything. -/
theorem look {f : Scene → α} (h : ∀ w : Scene, P.holds w.outline → (Q (f w)).holds w.outline) :
    Meets P (Script.look f) Q :=
  once fun w hw _ => ⟨.inr ⟨rfl, rfl, id, id⟩, h w hw⟩

/-- A step that has nothing to do with agreement. -/
theorem silent {f : Scene → α × Scene} (hf : ∀ w, (f w).2.outline = w.outline) :
    Meets P (atomically f) fun _ => P := by
  refine once fun w hw _ => ?_
  rw [Yields, hf]
  exact ⟨.inr ⟨rfl, rfl, id, id⟩, hw⟩

end Meets

end Monitor68
