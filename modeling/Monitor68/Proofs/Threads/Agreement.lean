import Monitor68.Proofs.Threads.Operations
import Monitor68.Proofs.Threads.Whole.History

/-!
# Session and engine agree

The owner of a session, the threads of its simulator and its polling
thread move in any order.  `good_of_reachable` is the invariant of the
whole system: between two operations the session is settled, and during an
operation the rest of its script leads to a settled session.

If the engine of a running session has halted, nobody but the polling
thread needs to do anything.  The `rank` of a world is the number of steps
that the polling thread is away from having seen to it, and every step of
it lowers the rank while no other thread raises it.
-/

namespace Monitor68

open Script Simulator

/-! ## The invariant of the system -/

/-- A step of the owner leaves the polling thread right about what it has
found. -/
theorem Outline.Sound.yields {o o' : Outline} (h : o.Sound) (hstep : o.Yields o') : o'.Sound := by
  rcases hstep with ⟨-, hphase⟩ | ⟨hphase, hplace, hrunning, hstate⟩
  · have hticking : o'.phase ≠ .ticking := by rcases hphase with hp | hp <;> simp [hp]
    exact ⟨fun hn => absurd hn.1 hticking, fun hc => absurd hc.1 hticking⟩
  · constructor
    · intro hn
      rw [Noticed, hphase, hplace] at hn
      exact Manned.clear_of_clear hrunning (h.noticed hn)
    · intro hc hs
      rw [Closed, hphase, hplace] at hc
      exact h.closed hc (hstate hs)

/-- The state of a session says what its engine does. -/
structure Session.Agrees (s : Session Simulator) : Prop where
  off : s.state = .unloaded ∨ s.state = .poweredOff →
    s.engine.powered = false ∧ s.engine.running = false
  on : s.state = .loaded ∨ s.state = .stepping ∨ s.state = .running → s.engine.powered = true
  going : s.engine.running = true → s.state = .running

namespace System

/-- A session on a simulator, its threads and its owner. -/
abbrev Stage := System Simulator Crew

/-- What holds at every moment. -/
structure Good (y : Stage) : Prop where
  sound : y.world.outline.Sound
  idle : y.owner = .idle → y.world.outline.Settled
  busy : ∀ rest, y.owner = .busy rest →
    Ensures World.Moves Yields (fun _ w => w.outline.Settled) rest y.world

theorem yields_of_step {y y' : Stage} (h : y.Good) (hstep : Step .owner y y') :
    Yields y.world y'.world := by
  cases hstep with
  | act hready => exact (h.busy _ rfl _ .refl hready).1
  | begin request => exact .inr ⟨rfl, rfl, id, id⟩
  | finish => exact .inr ⟨rfl, rfl, id, id⟩
  | supply hmade => exact .inr ⟨rfl, rfl, id, id⟩

theorem Good.moved {w w' : Scene} {owner : Owner Simulator Crew}
    (h : Good ⟨w, owner⟩) (hmove : World.Moves w w') : Good ⟨w', owner⟩ where
  sound := Outline.Sound.stable _ _ h.sound hmove.outline
  idle howner := Outline.Settled.stable _ _ (h.idle howner) hmove.outline
  busy rest howner := (h.busy rest howner).moved hmove

/-- The step lemma. -/
theorem Good.step {y y' : Stage} {thread : Thread} (h : y.Good) (hstep : Step thread y y') :
    y'.Good := by
  have hsound : thread = .owner → y'.world.outline.Sound := by
    intro howner
    subst howner
    exact h.sound.yields (yields_of_step h hstep)
  cases hstep with
  | engine hmove => exact h.moved (.engine hmove)
  | poll hphase => exact h.moved (.poll hphase)
  | @begin w request =>
    refine ⟨hsound rfl, by simp, ?_⟩
    intro rest howner
    cases howner
    have hsettled := h.idle rfl
    exact (script_meets _ request w ⟨hsettled, by simp, by simp, by simp⟩).mono (fun _ _ => id)
      fun _ _ hw => hw.1
  | act hready =>
    refine ⟨hsound rfl, by simp, ?_⟩
    intro rest howner
    cases howner
    exact (h.busy _ rfl _ .refl hready).2
  | finish => exact ⟨hsound rfl, fun _ => h.busy _ rfl _ .refl, by simp⟩
  | @supply w fresh hmade =>
    refine ⟨hsound rfl, fun _ => ?_, by simp⟩
    obtain ⟨⟨⟨hnoticed, hclosed⟩, -, hdark, hlit, hunlit, hgoing⟩, hattended, hkept⟩ := h.idle rfl
    refine ⟨⟨⟨hnoticed, hclosed⟩, ?_, hdark, hlit, hunlit, hgoing⟩, hattended, hkept⟩
    obtain ⟨hpowered, hrunning⟩ : fresh.powered = false ∧ fresh.running = false := hmade
    simp [World.outline, hpowered, hrunning]

/-- The run lemma. -/
theorem good_of_reachable {y : Stage} (h : Reachable y) : y.Good := by
  induction h with
  | step _ hstep ih => exact ih.step hstep
  | @start settings fresh hmade =>
    obtain ⟨hpowered, hrunning⟩ : fresh.powered = false ∧ fresh.running = false := hmade
    have hfresh : (start settings fresh : Stage).world.outline.fresh = true := by
      simp [World.outline, start, Session.new, hpowered, hrunning]
    have halone : (Assertion.alone false true (some .unloaded)).holds
        (start settings fresh : Stage).world.outline :=
      ⟨⟨hfresh, rfl, fun _ hs => Option.some.inj hs⟩, hpowered, fun _ => hrunning⟩
    have hsettled : (start settings fresh : Stage).world.outline.Settled :=
      (Assertion.settled_of_alone Assertion.passive_unloaded halone).1
    exact ⟨hsettled.toSound, fun _ => hsettled, by simp [start]⟩

end System

/-! ## An engine that has halted -/

/-- The number of steps that the polling thread is away from having seen to
a halted engine. -/
def Outline.rank (o : Outline) : Nat :=
  match o.phase, o.place with
  | .waiting, _ => 6
  | .testing, _ => 5
  | .ticking, .refreshing => 4
  | .ticking, .sending _ => 3
  | .ticking, .checking => 2
  | .ticking, .closing => 1
  | _, _ => 0

/-- The session is in the running state, and its polling thread is alive. -/
def Outline.Attended (o : Outline) : Prop := o.state = .running ∧ o.phase ≠ .finished

/-- The polling thread was told to stop. -/
def Outline.Told (o : Outline) : Prop := o.cancelled = true ∨ o.signalled = true

namespace World

def Attended (w : Scene) : Prop := w.outline.Attended

def Told (w : Scene) : Prop := w.outline.Told

/-- The polling thread is at some place of a tick. -/
def AtPlace (w : Scene) (place : TickPlace) : Prop := w.task.phase = .ticking ∧ w.place = place

end World

namespace Outline

theorem rank_le (o : Outline) : o.rank ≤ 6 := by
  unfold rank
  split <;> decide

theorem one_le_rank {o : Outline} (h : o.Sound) (hattended : o.Attended) : 1 ≤ o.rank := by
  obtain ⟨hstate, hlive⟩ := hattended
  have hopen : ¬ o.Closed := fun hclosed => h.closed hclosed hstate
  cases hphase : o.phase with
  | finished => exact absurd hphase hlive
  | testing => simp [rank, hphase]
  | waiting => simp [rank, hphase]
  | ticking =>
    cases hplace : o.place with
    | announcing => exact absurd ⟨hphase, .inl hplace⟩ hopen
    | leaving => exact absurd ⟨hphase, .inr hplace⟩ hopen
    | _ => simp [rank, hphase, hplace]

/-- A step of the polling thread at a halted engine lowers the rank if the
session stays attended, which it does unless the step halts it or the
thread was told to stop. -/
theorem Polls.halted {o o' : Outline} (hstep : o.Polls o') (h : o.Sound)
    (hattended : o.Attended) (hrest : o.running = false) :
    o'.running = false ∧ (o'.Attended → o'.rank < o.rank) ∧
      (o'.Attended ∨ o'.state = .halted ∨ o.Told) := by
  obtain ⟨hstate, hlive⟩ := hattended
  have hopen : ¬ o.Closed := fun hclosed => h.closed hclosed hstate
  unfold Closed at hopen
  refine ⟨?_, ?_, ?_⟩
  · cases hstep <;> exact hrest
  · intro hattended'
    cases hstep <;> simp_all [rank, Attended]
  · cases hstep <;> simp_all [Attended, Told]

/-- A step of another thread does not raise the rank. -/
theorem rank_of_yields {o o' : Outline} (hstep : o.Yields o') (hattended : o.Attended) :
    o'.rank = o.rank ∧ (o.running = false → o'.running = false) := by
  rcases hstep with ⟨hphase, -⟩ | ⟨hphase, hplace, hrunning, -⟩
  · exact absurd hphase hattended.2
  · exact ⟨by rw [rank, rank, hphase, hplace], Manned.clear_of_clear hrunning⟩

end Outline

namespace System

theorem Stays.wanted {wanted : Scene → Prop} {y y' : Stage} {n : Nat} (h : Stays wanted y n y') :
    wanted y'.world := by
  cases h with
  | refl h => exact h
  | other _ _ _ h => exact h
  | poll _ _ h => exact h

/-- As long as a running session is attended after its engine has halted, the
engine stays halted, and the rank bounds the steps of the polling thread
that have been and are to come. -/
theorem halted_of_stays {y y' : Stage} {n : Nat} (hy : y.Good)
    (hrest : y.world.outline.running = false) (hstay : Stays World.Attended y n y') :
    y'.Good ∧ y'.world.outline.running = false ∧
      n + y'.world.outline.rank ≤ y.world.outline.rank := by
  induction hstay with
  | refl _ => exact ⟨hy, hrest, by omega⟩
  | @other y' y'' n thread path hstep hthread h ih =>
    obtain ⟨hgood, hhalted, hrank⟩ := ih
    have hattended := path.wanted
    cases thread with
    | poller => exact absurd rfl hthread
    | owner =>
      obtain ⟨hsame, hkeep⟩ := Outline.rank_of_yields (yields_of_step hgood hstep) hattended
      exact ⟨hgood.step hstep, hkeep hhalted, by rw [hsame]; exact hrank⟩
    | engine =>
      have hgood' := hgood.step hstep
      cases hstep with
      | engine hmove =>
        obtain ⟨-, hrunning⟩ := Manned.Moves.keeps hmove
        exact ⟨hgood', Manned.clear_of_clear hrunning hhalted, hrank⟩
  | @poll y' y'' n path hstep h ih =>
    obtain ⟨hgood, hhalted, hrank⟩ := ih
    have hgood' := hgood.step hstep
    cases hstep with
    | @poll w owner hphase =>
      have hpolls := World.polls_poll hphase
      obtain ⟨hrest', hlower, -⟩ := hpolls.halted hgood.sound path.wanted hhalted
      have hlt : w.poll.outline.rank < w.outline.rank := hlower h
      have hle : n + w.outline.rank ≤ y.world.outline.rank := hrank
      refine ⟨hgood', hrest', ?_⟩
      show n + 1 + w.poll.outline.rank ≤ _
      omega

/-! ## The agreement -/

/-- What the invariant says of a session between two operations. -/
theorem Good.agrees {y : Stage} (h : y.Good) (hidle : y.owner = .idle) :
    y.world.session.Agrees ∧
    (y.world.session.state = .running →
      y.world.Attended ∧ y.world.task.isActive = true ∧ ¬ y.world.Told) := by
  have hsettled := h.idle hidle
  refine ⟨⟨fun hstate => ?_, hsettled.lit, hsettled.going⟩, fun hstate => ?_⟩
  · have hpowered : y.world.session.engine.powered = false := hsettled.unlit hstate
    exact ⟨hpowered, (hsettled.dark hpowered).1⟩
  · have hlive : y.world.task.phase ≠ .finished := hsettled.attended hstate
    obtain ⟨hkept, hcancelled, hsignalled⟩ := hsettled.kept hlive
    have hheld : y.world.task.held = true := hkept
    refine ⟨⟨hstate, hlive⟩, ?_, ?_⟩
    · simp [RepeatingTask.isActive, hheld, hlive]
    · intro htold
      rcases htold with hc | hs
      · exact Bool.false_ne_true (hcancelled.symm.trans hc)
      · exact Bool.false_ne_true (hsignalled.symm.trans hs)

/-- Between two operations the session agrees with its engine, and a running
session has a polling thread that nobody told to stop.

Once the engine of an attended session has halted, it stays halted for as
long as the session stays attended, and the polling thread takes at most
five steps in that time.  When it looks whether the engine runs, it finds
the engine halted, and then it halts the session, unless the state was
changed in between.  A step of the polling thread after which the session
is not attended any more has halted it, or an operation in progress has
told the thread to stop. -/
theorem session_agrees_with_engine {y : Stage} (h : Reachable y) :
    (y.owner = .idle →
      y.world.session.Agrees ∧
      (y.world.session.state = .running →
        y.world.Attended ∧ y.world.task.isActive = true ∧ ¬ y.world.Told)) ∧
    (y.world.Attended → y.world.session.engine.running = false →
      ∀ n y', Stays World.Attended y n y' →
        let w := y'.world
        w.session.engine.running = false ∧ n ≤ 5 ∧
        (w.AtPlace .checking → w.poll.AtPlace .closing) ∧
        (w.AtPlace .closing → w.poll.session.state = .halted) ∧
        (w.poll.Attended ∨ w.poll.session.state = .halted ∨ w.Told ∧ y'.owner ≠ .idle)) := by
  have hgood := good_of_reachable h
  refine ⟨fun hidle => hgood.agrees hidle, ?_⟩
  intro hattended hrest n y' hstay w
  obtain ⟨hgood', hrest', hrank⟩ := halted_of_stays hgood hrest hstay
  have hrunning : w.session.engine.running = false := hrest'
  have hattended' : w.Attended := hstay.wanted
  have hone := Outline.one_le_rank hgood'.sound hattended'
  have hsix := y.world.outline.rank_le
  have hpolls := World.polls_poll hattended'.2
  obtain ⟨-, -, hcases⟩ := hpolls.halted hgood'.sound hattended' hrest'
  refine ⟨hrunning, by omega, ?_, ?_, ?_⟩
  · intro hat
    obtain ⟨hphase, hplace⟩ := hat
    have hpoll : w.poll = { w with place := .closing } := by
      have hhalted : ¬ Engine.running w.session.engine = true :=
        Bool.eq_false_iff.1 hrunning
      simp only [World.poll, hphase, World.tick, hplace, if_neg hhalted]
    rw [hpoll]
    exact ⟨hphase, rfl⟩
  · intro hat
    obtain ⟨hphase, hplace⟩ := hat
    have hstate : w.session.state = .running := hattended'.1
    simp only [World.poll, hphase, World.tick, hplace, if_pos hstate]
  · rcases hcases with hstill | hhalted | htold
    · exact .inl hstill
    · exact .inr (.inl hhalted)
    · refine .inr (.inr ⟨htold, fun hidle => ?_⟩)
      obtain ⟨-, -, hnot⟩ := (hgood'.agrees hidle).2 hattended'.1
      exact hnot htold

/-- A program of no records. -/
def emptyFiles : Files.FileSystem where
  openFile _ := .ok { bytes := [] }
  isFile _ := true
  obstacle _ := none

/-- A run that has ended at once, since the entry point is outside of memory,
and that the polling thread has not yet noticed. -/
def endedRun : Session Simulator :=
  (Session.new {} (.blank 16)).after
    [.asked (.load emptyFiles ""), .asked .run, .turn]

theorem ended_run_agrees : ∃ y : Stage,
    Reachable y ∧ y.owner = .idle ∧ y.world.session.state = .running ∧
    y.world.session.engine.running = false ∧ y.world.Attended ∧
    ∀ n y', Stays World.Attended y n y' →
      y'.world.session.engine.running = false ∧ n ≤ 5 := by
  obtain ⟨w, hw, h⟩ := reachable_after {} 16 [.asked (.load emptyFiles ""), .asked .run, .turn]
  have hstate : w.session.state = .running := by
    show w.snapshot.state = .running
    rw [hw.snapshot]
    show endedRun.state = .running
    decide +kernel
  have hrest : w.session.engine.running = false := by
    rw [hw.engine]
    show endedRun.engine.running = false
    decide +kernel
  obtain ⟨hidle, hhalted⟩ := session_agrees_with_engine h
  obtain ⟨-, hattended⟩ := hidle rfl
  refine ⟨⟨w, .idle⟩, h, rfl, hstate, hrest, (hattended hstate).1, fun n y' hstay => ?_⟩
  obtain ⟨hrest', hn, -⟩ := hhalted (hattended hstate).1 hrest n y' hstay
  exact ⟨hrest', hn⟩

end System

end Monitor68
