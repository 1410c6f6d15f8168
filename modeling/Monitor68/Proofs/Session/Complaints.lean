import Monitor68.Proofs.Session.Request

/-!
# What a session complains of

An operation that fails returns an error, and the observers of the session
are told of it in the words of that error.  Operations are made of other
operations: to open a source is to load, and to load may be to start over,
which is to power down.  An error passes through all of them, and only the
one that it arises in may tell it.

`Tells s s' said` says that the stream went on from `s` to `s'`, and that
the complaints in what was added are those in `said`.
-/

namespace Monitor68

/-- What an event complains of. -/
def SessionEvent.complaint? : SessionEvent → Option String
  | .error message => some message
  | _ => none

/-- The complaints among some events. -/
def complaints (events : List SessionEvent) : List String := events.filterMap (·.complaint?)

/-- What is to be complained of if an operation answers so. -/
def grievances {α : Type} : Except SessionError α → List String
  | .ok _ => []
  | .error error => [error.message]

@[simp] theorem grievances_map {α β : Type} (answer : Except SessionError α) (f : α → β) :
    grievances (answer.map f) = grievances answer := by
  cases answer <;> rfl

@[simp] theorem complaints_append (told more : List SessionEvent) :
    complaints (told ++ more) = complaints told ++ complaints more :=
  List.filterMap_append

/-- A stream of events has gone on, with the given complaints. -/
def Continues (before after : List SessionEvent) (said : List String) : Prop :=
  ∃ told, after = before ++ told ∧ complaints told = said

namespace Continues

variable {first second third : List SessionEvent} {said more : List String}

theorem refl (events : List SessionEvent) : Continues events events [] :=
  ⟨[], (List.append_nil _).symm, rfl⟩

theorem trans (h : Continues first second said) (h' : Continues second third more) :
    Continues first third (said ++ more) := by
  obtain ⟨told, rfl, rfl⟩ := h
  obtain ⟨told', rfl, rfl⟩ := h'
  exact ⟨told ++ told', by rw [List.append_assoc], complaints_append _ _⟩

/-- To tell something that is no complaint. -/
theorem silently (h : Continues first second said) {event : SessionEvent}
    (hevent : event.complaint? = none) : Continues first (second ++ [event]) said := by
  have hnothing : Continues second (second ++ [event]) [] :=
    ⟨[event], rfl, by simp [complaints, hevent]⟩
  simpa using h.trans hnothing

/-- To complain once. -/
theorem complaining (h : Continues first second []) (message : String) :
    Continues first (second ++ [.error message]) [message] :=
  h.trans ⟨[.error message], rfl, rfl⟩

end Continues

namespace Session

open Files

variable {ε : Type}

/-- The stream of a session has gone on, with the given complaints. -/
abbrev Tells (s s' : Session ε) (said : List String) : Prop :=
  Continues s.events s'.events said

theorem fail_tells (s : Session ε) {α : Type} (error : SessionError) :
    s.Tells (s.fail error : Result ε α).2 [error.message] :=
  (Continues.refl _).complaining _

theorem enter_tells (s : Session ε) (state : SessionState) : s.Tells (s.enter state) [] := by
  unfold enter
  split
  · exact .refl _
  · exact (Continues.refl _).silently rfl

/-- To attach a listing is not to complain, whether it is there or not. -/
theorem attach_tells (s : Session ε) (files : FileSystem) (path : String) (importing : Bool) :
    s.Tells (s.attach files path importing).2 [] := by
  unfold attach
  split <;> exact (Continues.refl _).silently rfl

variable [Engine ε] (s : Session ε)

theorem addBreakpoint_tells (address : UInt32) :
    s.Tells (s.addBreakpoint address).2 (grievances (s.addBreakpoint address).1) := by
  unfold addBreakpoint
  split
  · exact s.fail_tells _
  · exact .refl _

theorem step_tells : s.Tells s.step.2 (grievances s.step.1) := by
  unfold step
  split
  · split
    · exact s.fail_tells _
    · split
      · exact s.fail_tells _
      · rename_i engine _
        exact enter_tells { s with engine } .stepping
  · exact s.fail_tells _

theorem run_tells : s.Tells s.run.2 (grievances s.run.1) := by
  rcases run_cases s with ⟨error, h⟩ | ⟨-, -, h⟩ | ⟨engine, -, -, -, h⟩
  · rw [h]
    exact s.fail_tells error
  · rw [h]
    exact .refl _
  · rw [h]
    exact enter_tells { s with engine } .running

theorem powerDownTo_tells (state : SessionState) :
    s.Tells (s.powerDownTo state).2 (grievances (s.powerDownTo state).1) := by
  rcases powerDownTo_cases s state with ⟨error, -, h⟩ | ⟨engine, -, h⟩
  · rw [h]
    exact fail_tells { s with polling := false } (.engine error)
  · rw [h]
    exact enter_tells { s with polling := false, engine } state

theorem reset_tells : s.Tells s.reset.2 (grievances s.reset.1) := by
  rcases reset_cases s with ⟨error, -, h⟩ | ⟨-, h⟩
  · rw [h]
    exact fail_tells { s with polling := false } (.engine error)
  · rw [h]
    exact enter_tells { s with
      polling := false, engine := s.fresh, breakpoints := .empty, listing := none } .unloaded

theorem loadImage_tells (files : FileSystem) (path : String) :
    s.Tells (s.loadImage files path).2 (grievances (s.loadImage files path).1) := by
  cases hopen : files.openFile path with
  | error error =>
    rw [loadImage_of_error s hopen]
    exact s.fail_tells _
  | ok c =>
    rcases loadImage_cases s hopen with ⟨error, -, h⟩ | ⟨entry, -, h⟩
    · rw [h]
      exact fail_tells (s.onTarget _) (.load error)
    · rw [h]
      have hloaded : s.Tells (({ s.onTarget (Image.load s.target s.settings.base s.settings.stack
          c.lines).1 with listing := none } : Session ε).emit (.loaded entry.address)) [] :=
        (Continues.refl _).silently rfl
      exact hloaded.trans (enter_tells _ .loaded)

/-- A load complains once: if it is the start over that fails, no more is
done. -/
theorem load_tells (files : FileSystem) (path : String) :
    s.Tells (s.load files path).2 (grievances (s.load files path).1) := by
  have hreset := s.reset_tells
  rcases load_cases s files path with ⟨-, h⟩ | ⟨-, ⟨error, hfailed, h⟩ | ⟨hdone, h⟩⟩
  · rw [h]
    exact s.loadImage_tells files path
  · rw [h]
    rw [hfailed] at hreset
    exact hreset
  · rw [h]
    rw [hdone] at hreset
    exact hreset.trans (s.reset.2.loadImage_tells files path)

theorem openSource_tells (files : FileSystem) (source : String) (importing : Bool) :
    s.Tells (s.openSource files source importing).2
      (grievances (s.openSource files source importing).1) := by
  rcases openSource_cases s files source importing with ⟨-, h⟩ | ⟨image, -, h⟩
  · rw [h]
    exact s.fail_tells _
  · have hload := s.load_tells files image
    rcases h with ⟨error, s', hanswer, h⟩ | ⟨entry, s', hanswer, h⟩
    · rw [h]
      rw [hanswer] at hload
      exact hload
    · rw [h]
      rw [hanswer] at hload
      exact hload.trans (s'.attach_tells files _ importing)

/-- Whatever is asked of a session, it complains of the error that it answers
with, once, and of nothing else. -/
theorem perform_tells (request : Request) :
    s.Tells (request.perform s).2 (grievances (request.perform s).1) := by
  have hforget : ∀ {α : Type} {out : Result ε α}, s.Tells out.2 (grievances out.1) →
      s.Tells out.2 (grievances (out.1.map fun _ => ())) := by
    intro α out h
    rwa [grievances_map]
  cases request with
  | load files path => exact hforget (s.load_tells files path)
  | openSource files source importing => exact hforget (s.openSource_tells files source importing)
  | attach files path importing => exact s.attach_tells files path importing
  | step => exact hforget s.step_tells
  | run => exact s.run_tells
  | stop => exact s.powerDownTo_tells .halted
  | powerOff => exact s.powerDownTo_tells .poweredOff
  | reset => exact s.reset_tells
  | addBreakpoint address => exact hforget (s.addBreakpoint_tells address)
  | editWatches edit => exact .refl _
  | refreshWatches => exact .refl _

end Session

end Monitor68
