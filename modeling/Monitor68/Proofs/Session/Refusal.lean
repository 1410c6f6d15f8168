import Mathlib.Logic.Relation
import Monitor68.Proofs.Session.Request
import Monitor68.Target.Restricted
import Monitor68.Target.Simulator

/-!
# Engines that refuse to be powered down

To stop, to power off, to reset and to load over a program all begin with
powering the engine down, and an engine may refuse that.  Nothing has been
done to the engine then, and nothing to the rest of the session, with one
exception: the task that polls the engine is told to end before the engine
is asked, and nobody starts it again.

`refused_power_down` is the whole effect of a refusal.  The loss shows in a
session that runs.  It goes on to run, since the engine does, but the task
that would notice the end of the run is gone, so the session stays running
for as long as it is left alone, also once the engine has halted.
-/

namespace Monitor68.Session

open Files Relation

variable {ε : Type} [Engine ε]

/-- Whether a request begins with powering down the engine of the session it
is made to. -/
def Request.PowersDown (s : Session ε) : Request → Prop
  | .stop | .powerOff | .reset => True
  | .load _ _ => s.state ≠ .unloaded
  | .openSource files source _ =>
    s.state ≠ .unloaded ∧ (companion files source imageExtensions).isSome
  | _ => False

/-! ## The requests -/

/-- What a refusal leaves of a session: it no longer polls, and it has told
why. -/
def refused (s : Session ε) (error : EngineError) : Session ε :=
  ({ s with polling := false } : Session ε).emit (.error error.message)

section Refused

variable {s : Session ε} {error : EngineError}

/-- An engine that refuses is not powered down. -/
theorem not_poweredDown (h : Refuses s.engine error) {engine : ε} :
    ¬ PoweredDown s.engine engine := by
  obtain ⟨hrefuses, hother⟩ := h
  intro hdown
  rcases hdown with hdown | ⟨hdown, -⟩
  · rw [hdown] at hrefuses
    cases hrefuses
  · rw [hdown] at hrefuses
    cases hrefuses
    exact hother rfl

/-- An engine refuses for one reason. -/
theorem refuses_unique (h : Refuses s.engine error) {other : EngineError}
    (hother : Refuses s.engine other) : other = error := by
  have hsame := hother.1.symm.trans h.1
  cases hsame
  rfl

theorem powerDownTo_of_refuses (h : Refuses s.engine error) (state : SessionState) :
    s.powerDownTo state = (.error (.engine error), s.refused error) := by
  rcases powerDownTo_cases s state with ⟨other, hother, hdown⟩ | ⟨engine, hdown, -⟩
  · rw [hdown, refuses_unique h hother]
    rfl
  · exact absurd hdown (not_poweredDown h)

theorem reset_of_refuses (h : Refuses s.engine error) :
    s.reset = (.error (.engine error), s.refused error) := by
  rcases reset_cases s with ⟨other, hother, hreset⟩ | ⟨⟨engine, hdown⟩, -⟩
  · rw [hreset, refuses_unique h hother]
    rfl
  · exact absurd hdown (not_poweredDown h)

theorem load_of_refuses (h : Refuses s.engine error) (hstate : s.state ≠ .unloaded)
    (files : FileSystem) (path : String) :
    s.load files path = (.error (.engine error), s.refused error) := by
  have hreset := reset_of_refuses h
  rcases load_cases s files path with ⟨hunloaded, -⟩ | ⟨-, ⟨other, hother, hload⟩ | ⟨hok, -⟩⟩
  · exact absurd hunloaded hstate
  · rw [hreset] at hother hload
    cases hother
    exact hload
  · rw [hreset] at hok
    cases hok

theorem openSource_of_refuses (h : Refuses s.engine error) (hstate : s.state ≠ .unloaded)
    {files : FileSystem} {source : String}
    (himage : (companion files source imageExtensions).isSome) (importing : Bool) :
    s.openSource files source importing = (.error (.engine error), s.refused error) := by
  rcases openSource_cases s files source importing with ⟨hnone, -⟩ | ⟨image, -, hopen⟩
  · rw [hnone] at himage
    cases himage
  · have hload := load_of_refuses h hstate files image
    rcases hopen with ⟨other, s', heq, hopen⟩ | ⟨entry, s', heq, -⟩
    · rw [hload] at heq
      cases heq
      exact hopen
    · rw [hload] at heq
      cases heq

/-- Every request that begins with powering down ends there if the engine
refuses. -/
theorem perform_of_refuses (h : Refuses s.engine error) {request : Request}
    (hdown : request.PowersDown s) :
    request.perform s = (.error (.engine error), s.refused error) := by
  cases request with
  | stop => exact powerDownTo_of_refuses h .halted
  | powerOff => exact powerDownTo_of_refuses h .poweredOff
  | reset => exact reset_of_refuses h
  | load files path =>
    rw [Request.perform, load_of_refuses h hdown]
    rfl
  | openSource files source importing =>
    obtain ⟨hstate, himage⟩ := hdown
    rw [Request.perform, openSource_of_refuses h hstate himage]
    rfl
  | attach | step | run | addBreakpoint | editWatches | refreshWatches => cases hdown

end Refused

/-! ## Afterwards -/

/-- What happens to a session of which nothing is asked: the polling task has
its turn, or the engine moves. -/
inductive LeftAlone : Session ε → Session ε → Prop where
  | poll {s : Session ε} : LeftAlone s s.poll
  | engine {s : Session ε} (engine : ε) : LeftAlone s { s with engine }

/-- A session that does not poll and is left alone stays in its state. -/
theorem LeftAlone.keeps {s s' : Session ε} (h : LeftAlone s s') (hpolling : s.polling = false) :
    s'.state = s.state ∧ s'.polling = false := by
  cases h with
  | poll =>
    have hpoll : s.poll = s := by simp [Session.poll, hpolling]
    rw [hpoll]
    exact ⟨rfl, hpolling⟩
  | engine engine => exact ⟨rfl, hpolling⟩

theorem state_of_leftAlone {s later : Session ε} (h : ReflTransGen LeftAlone s later)
    (hpolling : s.polling = false) : later.state = s.state ∧ later.polling = false := by
  induction h with
  | refl => exact ⟨rfl, hpolling⟩
  | tail _ hstep ih =>
    obtain ⟨hstate, hstill⟩ := hstep.keeps ih.2
    exact ⟨hstate.trans ih.1, hstill⟩

/-- A session that runs and polls is halted by the first poll after the
engine has come to rest. -/
theorem poll_of_rest {s : Session ε} (hstate : s.state = .running) (hpolling : s.polling = true)
    (hrest : Engine.running s.engine = false) : s.poll.state = .halted := by
  simp [poll, hpolling, refreshWatches, emit, enter, hrest, hstate]

/-- If the engine refuses to be powered down, a request that begins with that
fails, and the session is as it was except that it has told the error and
that it no longer polls.  So nothing but the telling has happened exactly
if the session did not poll before.

A session that ran goes on to run.  Left alone it stays running, whatever
the engine does, where before the request it would have been halted by the
first poll after the end of the run. -/
theorem refused_power_down {s : Session ε} {error : EngineError}
    (hrefuses : Refuses s.engine error) {request : Request} (hdown : request.PowersDown s) :
    (request.perform s).1 = .error (.engine error) ∧
    (request.perform s).2 =
      { s with polling := false, events := s.events ++ [.error error.message] } ∧
    ((request.perform s).2 = s.emit (.error error.message) ↔ s.polling = false) ∧
    (s.state = .running →
      (∀ later, ReflTransGen LeftAlone (request.perform s).2 later →
        later.state = .running ∧ later.polling = false) ∧
      (s.polling = true → ∀ engine, Engine.running engine = false →
        ({ s with engine } : Session ε).poll.state = .halted)) := by
  rw [perform_of_refuses hrefuses hdown]
  refine ⟨rfl, rfl, ⟨fun hsame => ?_, fun hpolling => ?_⟩, fun hstate => ⟨?_, ?_⟩⟩
  · have hpolling := congrArg Session.polling hsame
    exact hpolling.symm
  · show s.refused error = s.emit _
    rw [refused, ← hpolling]
  · intro later hlater
    obtain ⟨hlast, hstill⟩ := state_of_leftAlone hlater rfl
    exact ⟨hlast.trans hstate, hstill⟩
  · intro hpolling engine hrest
    exact poll_of_rest hstate hpolling hrest

/-! ## A run that nobody notices the end of -/

/-- A program of no records at every path. -/
def noRecords : FileSystem where
  openFile _ := .ok { bytes := [] }
  isFile _ := true
  obstacle _ := none

/-- A session that runs on an engine that refuses to be shut down. -/
def unstoppable : Session (Restricted Simulator) :=
  let loaded := (Request.perform (.new {} { inner := .blank 16 }) (.load noRecords "")).2
  let running := (Request.perform loaded .run).2
  { running with engine := { running.engine with refused := [.shutdown] } }

theorem refuses_unstoppable : Refuses unstoppable.engine .notPowered :=
  ⟨rfl, by decide⟩

theorem refused_power_down_of_unstoppable :
    unstoppable.polling = true ∧ unstoppable.state = .running ∧
    unstoppable.stop.1 = .error (.engine .notPowered) ∧
    (∀ later, ReflTransGen LeftAlone unstoppable.stop.2 later →
      later.state = .running ∧ later.polling = false) ∧
    ∀ engine, Engine.running engine = false →
      ({ unstoppable with engine } : Session (Restricted Simulator)).poll.state = .halted := by
  have hpolling : unstoppable.polling = true := by decide +kernel
  have hstate : unstoppable.state = .running := by decide +kernel
  have hdown : Request.stop.PowersDown unstoppable := trivial
  obtain ⟨herror, -, -, hafter⟩ := refused_power_down refuses_unstoppable hdown
  obtain ⟨hstuck, hwould⟩ := hafter hstate
  exact ⟨hpolling, hstate, herror, hstuck, hwould hpolling⟩

/-- The stop is refused, and the polling is gone.  The engine comes to rest,
and the poll that is due leaves the session running. -/
theorem unnoticed_end_of_run :
    Refuses unstoppable.engine .notPowered ∧
    unstoppable.stop.1 = .error (.engine .notPowered) ∧
    unstoppable.polling = true ∧ unstoppable.stop.2.polling = false ∧
    let rested : Session (Restricted Simulator) :=
      { unstoppable.stop.2 with engine := Engine.settle unstoppable.stop.2.engine }
    Engine.running rested.engine = false ∧ rested.poll.state = .running := by
  refine ⟨refuses_unstoppable, rfl, by decide +kernel, by decide +kernel, ?_⟩
  exact ⟨by decide +kernel, by decide +kernel⟩

end Monitor68.Session
