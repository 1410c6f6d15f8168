import Monitor68.Proofs.Threads.Script

/-!
# Relying on the other threads

What is to be shown of a thread among others often depends on a small part
of the state.  An `Aspect` is such a part: how to look at it, what the
others do to it, and what the thread promises to do to it.  A `Reliable`
property of the part is one that the others keep, so the thread may count
on it between two of its steps.

`Upholds` says that a script leads from one reliable property to another
and keeps its promise on the way.
-/

namespace Monitor68

open Script Relation

/-- A part of the state of threads that move by `R`. -/
structure Aspect {σ : Type} (R : σ → σ → Prop) (ω : Type) where
  view : σ → ω
  /-- What the other threads do to the part. -/
  Moves : ω → ω → Prop
  /-- What the thread promises to do to the part. -/
  Yields : ω → ω → Prop
  moves {s t : σ} : R s t → Moves (view s) (view t)
  yields_refl (o : ω) : Yields o o

/-- What moves by `M` keep. -/
structure Reliable {ω : Type} (M : ω → ω → Prop) where
  holds : ω → Prop
  stable : Stable M holds

/-- A property together with a fact that is not about the state. -/
def Reliable.given {ω : Type} {M : ω → ω → Prop} (P : Reliable M) (A : Prop) : Reliable M where
  holds o := A ∧ P.holds o
  stable := P.stable.given A

/-- Two properties together. -/
def Reliable.and {ω : Type} {M : ω → ω → Prop} (P Q : Reliable M) : Reliable M where
  holds o := P.holds o ∧ Q.holds o
  stable := fun s t hs hmove => ⟨P.stable s t hs.1 hmove, Q.stable s t hs.2 hmove⟩

/-- The whole state, of which the thread promises `G`. -/
def Aspect.whole {σ : Type} (R G : σ → σ → Prop) (hG : ∀ s, G s s) : Aspect R σ where
  view := id
  Moves := R
  Yields := G
  moves := id
  yields_refl := hG

namespace Aspect

variable {σ ρ ω α β : Type} {R : σ → σ → Prop} {A : Aspect R ω}

theorem stable_view (P : Reliable A.Moves) : Stable R fun s => P.holds (A.view s) :=
  fun _ _ hs hmove => P.stable _ _ hs (A.moves hmove)

/-- A step of the thread as the aspect shows it. -/
def Promises (A : Aspect R ω) (s t : σ) : Prop := A.Yields (A.view s) (A.view t)

/-- The script leads from one property to another, and each of its steps is as
promised. -/
def Upholds (A : Aspect R ω) (P : Reliable A.Moves) (c : Script σ α)
    (Q : α → Reliable A.Moves) : Prop :=
  ∀ s, P.holds (A.view s) → Ensures R A.Promises (fun a s => (Q a).holds (A.view s)) c s

namespace Upholds

variable {P P' : Reliable A.Moves} {Q Q' : α → Reliable A.Moves} {c : Script σ α}

theorem pure {a : α} (h : ∀ o, P.holds o → (Q a).holds o) : A.Upholds P (Pure.pure a) Q :=
  fun _ hs => .pure (stable_view (Q a)) (h _ hs)

theorem bind {M : α → Reliable A.Moves} {Q : β → Reliable A.Moves} {k : α → Script σ β}
    (h : A.Upholds P c M) (hk : ∀ a, A.Upholds (M a) (k a) Q) : A.Upholds P (c >>= k) Q :=
  fun s hs => (h s hs).bind hk

theorem weaken (h : A.Upholds P c Q) (hP : ∀ o, P'.holds o → P.holds o)
    (hQ : ∀ a o, (Q a).holds o → (Q' a).holds o) : A.Upholds P' c Q' :=
  fun s hs => (h s (hP _ hs)).mono (fun _ _ => id) fun a _ => hQ a _

/-- What is not about the state is known before the script begins. -/
theorem given {F : Prop} (h : F → A.Upholds P c Q) : A.Upholds (P.given F) c Q :=
  fun s hs => h hs.1 s hs.2

/-- A script leaves alone what its promise leaves alone. -/
theorem frame {F : Reliable A.Moves} (hF : ∀ o o', F.holds o → A.Yields o o' → F.holds o')
    (h : A.Upholds P c Q) : A.Upholds (P.and F) c fun a => (Q a).and F := by
  intro s hs
  obtain ⟨hP, hs⟩ := hs
  have hc := h s hP
  clear h hP
  induction c generalizing s with
  | done a => exact fun t ht => ⟨hc t ht, (stable_view F).star hs ht⟩
  | act ready effect next ih =>
    intro t ht hready
    obtain ⟨hstep, hrest⟩ := hc t ht hready
    exact ⟨hstep, ih t _ (hF _ _ ((stable_view F).star hs ht) hstep) hrest⟩

theorem once {ready : σ → Bool} {f : σ → α × σ}
    (h : ∀ s, P.holds (A.view s) → ready s = true →
      A.Promises s (f s).2 ∧ (Q (f s).1).holds (A.view (f s).2)) :
    A.Upholds P (Script.once ready f) Q :=
  fun _ hs => .once (stable_view P) (fun a => stable_view (Q a)) hs h

/-- To look at the state keeps every promise. -/
theorem look {f : σ → α} (h : ∀ s, P.holds (A.view s) → (Q (f s)).holds (A.view s)) :
    A.Upholds P (Script.look f) Q :=
  once fun s hs _ => ⟨A.yields_refl _, h s hs⟩

/-- A step that does not touch the part. -/
theorem silent {ready : σ → Bool} {f : σ → α × σ} (hf : ∀ s, A.view (f s).2 = A.view s) :
    A.Upholds P (Script.once ready f) fun _ => P := by
  refine once fun s hs _ => ?_
  rw [Promises, hf]
  exact ⟨A.yields_refl _, hs⟩

/-- A script that works beside the part, whatever it does. -/
theorem beside {c : Script ρ α} {get : σ → ρ} {set : ρ → σ → σ}
    (hget : ∀ r s, get (set r s) = r) (hview : ∀ r s, A.view (set r s) = A.view s) :
    A.Upholds P (c.within get set) fun _ => P := by
  intro s hs
  have hkeeps : ∀ r s, P.holds (A.view s) → P.holds (A.view (set r s)) := by
    intro r s hs
    rw [hview]
    exact hs
  have hmoves : ∀ s t, R s t → ReflTransGen (fun _ _ => True) (get s) (get t) :=
    fun _ _ _ => .single trivial
  have hwithin := Ensures.within hget hmoves (stable_view P) hkeeps (.trivial c (get s)) hs
  refine hwithin.mono ?_ fun _ _ h => h.1
  intro s t ht
  obtain ⟨-, -, ht⟩ := ht
  rw [Promises, ht, hview]
  exact A.yields_refl _

end Upholds

end Aspect

end Monitor68
