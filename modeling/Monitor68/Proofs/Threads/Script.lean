import Mathlib.Logic.Relation

/-!
# Scripts

A thread that shares its state with other threads does what it does step
by step, and between two of its steps the others may have moved.  A
`Script` is such a thread: a tree of steps, each of which waits until the
state is ready for it, changes the state, and goes on from what it saw.

Two judgements say what a script does among others that move by a
relation `R`.  `Ensures` is about all interleavings: each step of the
script keeps its promise `G`, and the script ends in its postcondition
however the others move.  `Leads` is about one of them: the script can end
in a given state.
-/

namespace Monitor68

open Relation

/-- A thread over shared states `σ` that answers with an `α`.  A step reads
and changes the state in one moment. -/
inductive Script (σ α : Type) where
  | done (answer : α)
  | act (ready : σ → Bool) (effect : σ → σ) (next : σ → Script σ α)

namespace Script

variable {σ ρ α β : Type}

/-- One script and then another. -/
def bind : Script σ α → (α → Script σ β) → Script σ β
  | .done a, k => k a
  | .act ready effect next, k => .act ready effect fun s => (next s).bind k

instance : Monad (Script σ) where
  pure := .done
  bind := bind

/-- A single step, taken when the state is ready. -/
def once (ready : σ → Bool) (f : σ → α × σ) : Script σ α :=
  .act ready (fun s => (f s).2) fun s => .done (f s).1

/-- A step that is always possible. -/
def atomically (f : σ → α × σ) : Script σ α := once (fun _ => true) f

/-- Look at the state. -/
def look (f : σ → α) : Script σ α := atomically fun s => (f s, s)

/-- Change the state. -/
def change (f : σ → σ) : Script σ Unit := atomically fun s => ((), f s)

/-- Wait for the state to be ready. -/
def await (ready : σ → Bool) : Script σ Unit := once ready fun s => ((), s)

/-- A script over a part of the state. -/
def within (get : σ → ρ) (set : ρ → σ → σ) : Script ρ α → Script σ α
  | .done a => .done a
  | .act ready effect next =>
    .act (fun s => ready (get s)) (fun s => set (effect (get s)) s) fun s =>
      within get set (next (get s))

theorem within_once {get : σ → ρ} {set : ρ → σ → σ} {ready : ρ → Bool} {f : ρ → α × ρ} :
    within get set (once ready f) =
      once (fun s => ready (get s)) fun s => ((f (get s)).1, set (f (get s)).2 s) := rfl

/-! ## All interleavings -/

/-- What moves by `R` keep. -/
def Stable (R : σ → σ → Prop) (P : σ → Prop) : Prop := ∀ s t, P s → R s t → P t

theorem Stable.star {R : σ → σ → Prop} {P : σ → Prop} (h : Stable R P) {s t : σ} (hs : P s)
    (hst : ReflTransGen R s t) : P t := by
  induction hst with
  | refl => exact hs
  | tail _ hmove ih => exact h _ _ ih hmove

theorem Stable.given {R : σ → σ → Prop} {P : σ → Prop} (hP : Stable R P) (A : Prop) :
    Stable R fun s => A ∧ P s :=
  fun s t h hst => ⟨h.1, hP s t h.2 hst⟩

/-- What keeps the others from moving stays. -/
theorem stable_of_blocked {R : σ → σ → Prop} {P : σ → Prop} (h : ∀ s t, R s t → ¬ P s) :
    Stable R P :=
  fun s t hs hmove => absurd hs (h s t hmove)

/-- However the others move by `R`, each step of the script is one of `G`,
and the script ends with an answer and a state that satisfy `Q`. -/
def Ensures (R G : σ → σ → Prop) (Q : α → σ → Prop) : Script σ α → σ → Prop
  | .done a, s => ∀ t, ReflTransGen R s t → Q a t
  | .act ready effect next, s => ∀ t, ReflTransGen R s t → ready t = true →
      G t (effect t) ∧ Ensures R G Q (next t) (effect t)

section Ensures

variable {R G G' : σ → σ → Prop} {P : σ → Prop} {Q Q' : α → σ → Prop} {c : Script σ α} {s t : σ}

/-- A move of the others takes nothing away. -/
theorem Ensures.moved (h : Ensures R G Q c s) (hst : R s t) : Ensures R G Q c t := by
  cases c with
  | done a => exact fun u hu => h u (.head hst hu)
  | act ready effect next => exact fun u hu => h u (.head hst hu)

theorem Ensures.mono (h : Ensures R G Q c s) (hG : ∀ s t, G s t → G' s t)
    (hQ : ∀ a s, Q a s → Q' a s) : Ensures R G' Q' c s := by
  induction c generalizing s with
  | done a => exact fun t ht => hQ a t (h t ht)
  | act ready effect next ih =>
    intro t ht hready
    obtain ⟨hstep, hrest⟩ := h t ht hready
    exact ⟨hG t _ hstep, ih t hrest⟩

theorem Ensures.and (h : Ensures R G Q c s) (h' : Ensures R G' Q' c s) :
    Ensures R (fun s t => G s t ∧ G' s t) (fun a s => Q a s ∧ Q' a s) c s := by
  induction c generalizing s with
  | done a => exact fun t ht => ⟨h t ht, h' t ht⟩
  | act ready effect next ih =>
    intro t ht hready
    obtain ⟨hstep, hrest⟩ := h t ht hready
    obtain ⟨hstep', hrest'⟩ := h' t ht hready
    exact ⟨⟨hstep, hstep'⟩, ih t hrest hrest'⟩

/-- Every script ensures what is true anyway. -/
theorem Ensures.trivial (c : Script σ α) (s : σ) :
    Ensures R (fun _ _ => True) (fun _ _ => True) c s := by
  induction c generalizing s with
  | done a => exact fun _ _ => True.intro
  | act ready effect next ih => exact fun t _ _ => ⟨True.intro, ih t (effect t)⟩

theorem Ensures.bind {M : α → σ → Prop} {Q : β → σ → Prop} {k : α → Script σ β}
    (h : Ensures R G M c s) (hk : ∀ a t, M a t → Ensures R G Q (k a) t) :
    Ensures R G Q (c >>= k) s := by
  induction c generalizing s with
  | done a => exact hk a s (h s .refl)
  | act ready effect next ih =>
    intro t ht hready
    obtain ⟨hstep, hrest⟩ := h t ht hready
    exact ⟨hstep, ih t hrest⟩

theorem Ensures.pure {a : α} (hQ : Stable R (Q a)) (hs : Q a s) :
    Ensures R G Q (Pure.pure a) s :=
  fun _ hst => hQ.star hs hst

/-- A step from a stable precondition to a stable postcondition. -/
theorem Ensures.once {ready : σ → Bool} {f : σ → α × σ} (hP : Stable R P)
    (hQ : ∀ a, Stable R (Q a)) (hs : P s)
    (h : ∀ t, P t → ready t = true → G t (f t).2 ∧ Q (f t).1 (f t).2) :
    Ensures R G Q (once ready f) s := by
  intro t ht hready
  obtain ⟨hstep, hpost⟩ := h t (hP.star hs ht) hready
  exact ⟨hstep, fun u hu => (hQ _).star hpost hu⟩

/-- What a script ensures over a part of the state, it ensures over the
whole, and besides it keeps what neither the others nor changes of the part
touch. -/
theorem Ensures.within {R' G' : ρ → ρ → Prop} {Q' : α → ρ → Prop} {c : Script ρ α}
    {get : σ → ρ} {set : ρ → σ → σ} {F : σ → Prop} (hget : ∀ r s, get (set r s) = r)
    (hR : ∀ s t, R s t → ReflTransGen R' (get s) (get t)) (hF : Stable R F)
    (hset : ∀ r s, F s → F (set r s)) (h : Ensures R' G' Q' c (get s)) (hs : F s) :
    Ensures R (fun s t => F s ∧ G' (get s) (get t) ∧ t = set (get t) s)
      (fun a s => F s ∧ Q' a (get s)) (within get set c) s := by
  have lift : ∀ {s t : σ}, ReflTransGen R s t → ReflTransGen R' (get s) (get t) := by
    intro s t hst
    induction hst with
    | refl => exact .refl
    | tail _ hmove ih => exact ih.trans (hR _ _ hmove)
  induction c generalizing s with
  | done a => exact fun t ht => ⟨hF.star hs ht, h _ (lift ht)⟩
  | act ready effect next ih =>
    intro t ht hready
    obtain ⟨hstep, hrest⟩ := h _ (lift ht) hready
    have hFt : F t := hF.star hs ht
    refine ⟨⟨hFt, ?_, ?_⟩, ih _ ?_ (hset _ _ hFt)⟩
    · rwa [hget]
    · rw [hget]
    · rwa [hget]

end Ensures

/-! ## One interleaving -/

/-- Among others that move by `R`, the script can end with an answer in a
state. -/
inductive Leads (R : σ → σ → Prop) : Script σ α → σ → α → σ → Prop where
  | done {a : α} {s : σ} : Leads R (.done a) s a s
  | moved {c : Script σ α} {s t u : σ} {a : α} (hmove : R s t) (rest : Leads R c t a u) :
      Leads R c s a u
  | acted {ready : σ → Bool} {effect : σ → σ} {next : σ → Script σ α} {s u : σ} {a : α}
      (hready : ready s = true) (rest : Leads R (next s) (effect s) a u) :
      Leads R (.act ready effect next) s a u

section Leads

variable {R : σ → σ → Prop} {c : Script σ α} {s t u : σ} {a : α}

/-- What is ensured in all interleavings is so in each of them. -/
theorem Ensures.of_leads {G : σ → σ → Prop} {Q : α → σ → Prop} (h : Ensures R G Q c s)
    (hleads : Leads R c s a u) : Q a u := by
  induction hleads with
  | done => exact h _ .refl
  | moved hmove _ ih => exact ih (h.moved hmove)
  | acted hready _ ih => exact ih (h _ .refl hready).2

theorem Leads.movedStar (hst : ReflTransGen R s t) (h : Leads R c t a u) : Leads R c s a u := by
  induction hst using ReflTransGen.head_induction_on with
  | refl => exact h
  | head hmove _ ih => exact .moved hmove ih

theorem Leads.bind {k : α → Script σ β} {b : β} (h : Leads R c s a t)
    (hk : Leads R (k a) t b u) : Leads R (c >>= k) s b u := by
  induction h with
  | done => exact hk
  | moved hmove _ ih => exact .moved hmove (ih hk)
  | acted hready _ ih => exact .acted hready (ih hk)

theorem Leads.once {ready : σ → Bool} {f : σ → α × σ} (hready : ready s = true) :
    Leads R (once ready f) s (f s).1 (f s).2 :=
  .acted hready .done

theorem Leads.within {R' : ρ → ρ → Prop} {c : Script ρ α} {get : σ → ρ} {set : ρ → σ → σ}
    {r r' : ρ} (hget : ∀ r s, get (set r s) = r) (hset : ∀ r r' s, set r (set r' s) = set r s)
    (hR : ∀ s r r', R' r r' → R (set r s) (set r' s)) (h : Leads R' c r a r') (s : σ) :
    Leads R (within get set c) (set r s) a (set r' s) := by
  induction h with
  | done => exact .done
  | moved hmove _ ih => exact .moved (hR s _ _ hmove) ih
  | @acted ready effect next r r' a hready _ ih =>
    refine .acted (by rwa [hget]) ?_
    rw [hget, hset]
    exact ih

end Leads

end Script

end Monitor68
