import Mathlib.Data.List.Induction

/-!
# Traces

Threads that share a state move it by steps, and every step has a label
that tells what an observer would write down about it.  A `Trace` is what
was written down between two states.

What is said of everything that comes after an event is said of a trace
that is cut behind it, so the lemmas here cut traces and put them
together.  A property that every step keeps holds at the end of a trace if
it holds at its beginning.

Where the states on the way matter, they are noted down as well: a trace
of `Recorded` steps leads from what was on record and a state to what is
on record then, which is longer by one state for each step.
-/

namespace Monitor68

variable {σ ε : Type} {Step : ε → σ → σ → Prop}

/-- One state becomes another by steps with these labels. -/
inductive Trace (Step : ε → σ → σ → Prop) (s : σ) : List ε → σ → Prop where
  | nil : Trace Step s [] s
  | snoc {t u : σ} {es : List ε} {e : ε} (path : Trace Step s es t) (hstep : Step e t u) :
      Trace Step s (es ++ [e]) u

namespace Trace

variable {s t u : σ} {es es' : List ε} {e : ε}

theorem append (h : Trace Step s es t) (h' : Trace Step t es' u) :
    Trace Step s (es ++ es') u := by
  induction h' with
  | nil => rwa [List.append_nil]
  | snoc _ hstep ih =>
    rw [← List.append_assoc]
    exact ih.snoc hstep

theorem cons (hstep : Step e s t) (h : Trace Step t es u) : Trace Step s (e :: es) u :=
  (nil.snoc hstep).append h

/-- The last step of a trace that is not empty. -/
theorem exists_last (h : Trace Step s (es ++ [e]) u) : ∃ t, Trace Step s es t ∧ Step e t u := by
  generalize hes : es ++ [e] = all at h
  cases h with
  | nil => simp at hes
  | snoc path hstep =>
    obtain ⟨rfl, hlast⟩ := List.append_inj' hes rfl
    cases hlast
    exact ⟨_, path, hstep⟩

/-- A trace can be cut anywhere. -/
theorem exists_middle (h : Trace Step s (es ++ es') u) :
    ∃ t, Trace Step s es t ∧ Trace Step t es' u := by
  induction es' using List.reverseRecOn generalizing u with
  | nil =>
    rw [List.append_nil] at h
    exact ⟨u, h, .nil⟩
  | append_singleton front e ih =>
    rw [← List.append_assoc] at h
    obtain ⟨v, hfront, hstep⟩ := exists_last h
    obtain ⟨t, hbefore, hbehind⟩ := ih hfront
    exact ⟨t, hbefore, hbehind.snoc hstep⟩

/-- A trace can be cut around any of its steps. -/
theorem exists_around (h : Trace Step s es u) (he : e ∈ es) :
    ∃ before after t t', es = before ++ e :: after ∧ Trace Step s before t ∧ Step e t t' ∧
      Trace Step t' after u := by
  obtain ⟨before, after, rfl⟩ := List.append_of_mem he
  rw [List.append_cons] at h
  obtain ⟨t', hfront, hafter⟩ := exists_middle h
  obtain ⟨t, hbefore, hstep⟩ := exists_last hfront
  exact ⟨before, after, t, t', rfl, hbefore, hstep, hafter⟩

/-- What steps with admitted labels keep. -/
theorem keeps {P : σ → Prop} {A : ε → Prop} (h : Trace Step s es t)
    (hstep : ∀ e s t, A e → P s → Step e s t → P t) (hes : ∀ e ∈ es, A e) (hs : P s) : P t := by
  induction h with
  | nil => exact hs
  | @snoc _ _ es e _ hlast ih =>
    have hfront : ∀ e ∈ es, A e := fun e he => hes e (List.mem_append_left _ he)
    have hend : A e := hes e (List.mem_append_right _ (List.mem_singleton_self e))
    exact hstep _ _ _ hend (ih hfront) hlast

/-- What all steps keep. -/
theorem invariant {P : σ → Prop} (h : Trace Step s es t)
    (hstep : ∀ e s t, P s → Step e s t → P t) (hs : P s) : P t :=
  h.keeps (fun e s t (_ : True) => hstep e s t) (fun _ _ => trivial) hs

/-- A label that no step has where a property holds, if all steps keep the
property. -/
theorem not_mem {P : σ → Prop} (h : Trace Step s es t)
    (hstep : ∀ e' s t, P s → Step e' s t → P t ∧ e' ≠ e) (hs : P s) : e ∉ es := by
  intro he
  obtain ⟨_, _, u, v, -, hbefore, hlast, -⟩ := exists_around h he
  have hu : P u := hbefore.invariant (fun e s t hs h => (hstep e s t hs h).1) hs
  exact (hstep e u v hu hlast).2 rfl

end Trace

/-! ## The states on the way -/

/-- Steps that note down the state that they start from. -/
inductive Recorded (Step : ε → σ → σ → Prop) (e : ε) : List σ × σ → List σ × σ → Prop where
  | step {past : List σ} {s t : σ} (h : Step e s t) : Recorded Step e (past, s) (past ++ [s], t)

namespace Trace

variable {s t : σ} {es : List ε} {past all : List σ}

/-- A trace without its record. -/
theorem of_recorded {x y : List σ × σ} (h : Trace (Recorded Step) x es y) :
    Trace Step x.2 es y.2 := by
  induction h with
  | nil => exact .nil
  | snoc _ hstep ih =>
    cases hstep with
    | step h => exact ih.snoc h

/-- Every trace can be recorded. -/
theorem exists_recorded (h : Trace Step s es t) (past : List σ) :
    ∃ all, Trace (Recorded Step) (past, s) es (all, t) := by
  induction h with
  | nil => exact ⟨past, .nil⟩
  | snoc _ hstep ih =>
    obtain ⟨all, hrecorded⟩ := ih
    exact ⟨_, hrecorded.snoc (.step hstep)⟩

/-- One moment is added for each step, whatever was on record before. -/
theorem exists_moments (h : Trace (Recorded Step) (past, s) es (all, t)) :
    ∃ moments, all = past ++ moments ∧ moments.length = es.length ∧
      ∀ other, Trace (Recorded Step) (other, s) es (other ++ moments, t) := by
  generalize hy : (all, t) = y at h
  induction h generalizing all t with
  | nil =>
    cases hy
    refine ⟨[], (List.append_nil _).symm, rfl, fun other => ?_⟩
    rw [List.append_nil]
    exact .nil
  | snoc _ hstep ih =>
    cases hstep with
    | @step before u v hstep =>
      cases hy
      obtain ⟨moments, rfl, hlength, hmoved⟩ := ih rfl
      refine ⟨moments ++ [u], List.append_assoc .., by simp [hlength], fun other => ?_⟩
      rw [← List.append_assoc]
      exact (hmoved other).snoc (.step hstep)

end Trace

end Monitor68
