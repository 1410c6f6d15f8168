import Monitor68.Proofs.Screen.Ticks

/-!
# Looking at a target that moves

A tick looks at its engine many times: at the power, at the status byte, at
the palette and at one row after the other.  Between two looks the engine
may have become another one, and the task may have been cancelled.  A
`Glance` is such a sequence of looks, of which each may depend on what was
seen before.

`glance` is what a tick looks at.  On an engine that stays as it is, it
finds what `Worker.tick` shows (`judge_still`), and whatever it finds to
publish there is what a tick shows that is never cancelled (`calm_glance`).
-/

namespace Monitor68

/-- What is found out by looking at a state again and again. -/
inductive Glance (σ α : Type) where
  | answer (a : α)
  | look (next : σ → Glance σ α)

namespace Glance

variable {σ α β : Type}

def bind : Glance σ α → (α → Glance σ β) → Glance σ β
  | .answer a, k => k a
  | .look next, k => .look fun s => (next s).bind k

instance : Monad (Glance σ) where
  pure := .answer
  bind := bind

/-- Look once. -/
def see (f : σ → α) : Glance σ α := .look fun s => .answer (f s)

/-- What is left to look at when some states were seen. -/
def after : Glance σ α → List σ → Glance σ α
  | g, [] => g
  | .answer a, _ :: _ => .answer a
  | .look next, s :: seen => (next s).after seen

/-- What is found out about a state that stays as it is. -/
def still (s : σ) : Glance σ α → α
  | .answer a => a
  | .look next => (next s).still s

variable {g : Glance σ α} {s : σ} {seen : List σ}

@[simp] theorem after_nil (g : Glance σ α) : g.after [] = g := by
  cases g <;> rfl

/-- One more look. -/
theorem after_concat {next : σ → Glance σ α} (h : g.after seen = .look next) :
    g.after (seen ++ [s]) = next s := by
  induction seen generalizing g with
  | nil =>
    obtain rfl : g = .look next := by simpa using h
    exact after_nil _
  | cons first rest ih =>
    cases g with
    | answer a => cases h
    | look other => exact ih (g := other first) h

theorem after_pure (a : α) (seen : List σ) : (pure a : Glance σ α).after seen = .answer a := by
  cases seen <;> rfl

/-- What was seen by two glances one after the other. -/
theorem exists_of_bind {k : α → Glance σ β} {b : β} (h : (g >>= k).after seen = .answer b) :
    ∃ first rest a, seen = first ++ rest ∧ g.after first = .answer a ∧
      (k a).after rest = .answer b := by
  induction g generalizing seen with
  | answer a => exact ⟨[], seen, a, rfl, rfl, h⟩
  | look next ih =>
    cases seen with
    | nil => cases h
    | cons s seen =>
      obtain ⟨first, rest, a, rfl, hfirst, hrest⟩ := ih s h
      exact ⟨s :: first, rest, a, rfl, hfirst, hrest⟩

@[simp] theorem still_pure (a : α) : (pure a : Glance σ α).still s = a := rfl

@[simp] theorem still_see (f : σ → α) : (see f).still s = f s := rfl

@[simp] theorem still_bind (k : α → Glance σ β) : (g >>= k).still s = (k (g.still s)).still s := by
  induction g with
  | answer a => rfl
  | look next ih => exact ih s

end Glance

namespace Screen

open Glance (see still_bind still_see)

/-- What a worker can see in one moment. -/
structure Sight (ε : Type) where
  engine : ε
  /-- Whether the task of the worker is cancelled. -/
  cancelled : Bool

/-- What a tick has found out. -/
inductive Verdict where
  /-- The engine has no power. -/
  | off
  /-- There is no frame, or it is not to be taken. -/
  | nothing
  | composed (frame : Frame)
deriving DecidableEq, Repr

/-! ## A cancellation that makes no difference -/

section Calm

variable {ε α β : Type} {e : ε} {A : α → Prop} {B : β → Prop} {g : Glance (Sight ε) α}

/-- Whether the answers of some kind that a glance finds about an engine that
stays as it is are found as well by one that is never cancelled. -/
def Calm (e : ε) (A : α → Prop) (g : Glance (Sight ε) α) : Prop :=
  ∀ seen a, (∀ x ∈ seen, x.engine = e) → g.after seen = .answer a → A a → g.still ⟨e, false⟩ = a

theorem calm_pure (a : α) : Calm e A (pure a) := by
  intro seen a' _ hafter _
  rw [Glance.after_pure] at hafter
  cases hafter
  rfl

theorem calm_see {f : Sight ε → α} (hf : ∀ cancelled, A (f ⟨e, cancelled⟩) →
    f ⟨e, false⟩ = f ⟨e, cancelled⟩) : Calm e A (see f) := by
  intro seen a hseen hafter ha
  cases seen with
  | nil => cases hafter
  | cons x rest =>
    obtain ⟨e', cancelled⟩ := x
    obtain rfl : e' = e := hseen _ List.mem_cons_self
    have hanswer : (pure (f ⟨e', cancelled⟩) : Glance (Sight ε) α).after rest = .answer a := hafter
    rw [Glance.after_pure] at hanswer
    cases hanswer
    exact hf cancelled ha

/-- Two glances one after the other, if only answers of one kind to the first
lead to answers of the other kind. -/
theorem calm_bind {k : α → Glance (Sight ε) β} (hg : Calm e A g)
    (hA : ∀ a seen b, (k a).after seen = .answer b → B b → A a)
    (hk : ∀ a, A a → Calm e B (k a)) : Calm e B (g >>= k) := by
  intro seen b hseen hafter hb
  obtain ⟨first, rest, a, rfl, hfirst, hrest⟩ := Glance.exists_of_bind hafter
  have ha : A a := hA a rest b hrest hb
  have hstill := hg first a (fun x hx => hseen x (List.mem_append_left _ hx)) hfirst ha
  rw [still_bind, hstill]
  exact hk a ha rest b (fun x hx => hseen x (List.mem_append_right _ hx)) hrest hb

/-- A look at the engine alone. -/
theorem calm_look {f : Sight ε → α} {k : α → Glance (Sight ε) β}
    (hf : ∀ cancelled, f ⟨e, false⟩ = f ⟨e, cancelled⟩) (hk : ∀ a, Calm e B (k a)) :
    Calm e B (see f >>= k) :=
  calm_bind (A := fun _ => True) (calm_see fun cancelled _ => hf cancelled)
    (fun _ _ _ _ _ => trivial) fun a _ => hk a

end Calm

variable {ε : Type} [Engine ε]

/-! ## The looks of a tick -/

/-- Whether a frame may be taken. -/
def glanceReady (l : Layout) : Glance (Sight ε) Bool :=
  if l.frameSwap then do
    let status ← see fun s => readStatus s.engine l
    match status with
    | .ok status => pure status.ack
    | .error _ => pure false
  else pure true

/-- The rows of a frame.  Before each row the worker looks whether it is
cancelled. -/
def glanceRows (l : Layout) (buffer : UInt32) (palette : Array Color) : (left : Nat) →
    (y : UInt32) → (pixels : Array Color) → Glance (Sight ε) (Except ComposeError (Array Color))
  | 0, _, pixels => pure (.ok pixels)
  | left + 1, y, pixels => do
    let cancelled ← see Sight.cancelled
    if cancelled then pure (.error .cancelled)
    else
      let row ← see fun s => Engine.readBlock s.engine (l.rowAddress buffer y) l.width.toNat
      match row with
      | .error error => pure (.error (.engine error))
      | .ok row =>
        glanceRows l buffer palette left (y + 1)
          (row.foldl (fun pixels index => pixels.push (lookup palette index)) pixels)

/-- A frame behind its status byte and its palette. -/
def glancePixels (l : Layout) (buffer : UInt32) (status : Status) (palette : Array Color) :
    Glance (Sight ε) (Except ComposeError Frame) :=
  if status.fill then do
    let index ← see fun s => Engine.readByte s.engine buffer
    match index with
    | .error error => pure (.error (.engine error))
    | .ok index => pure (.ok (.filled l.width l.height (lookup palette index)))
  else do
    let pixels ← glanceRows l buffer palette l.height.toNat 0 #[]
    pure (pixels.map fun pixels => { width := l.width, height := l.height, pixels })

/-- A frame, if it can be composed. -/
def glanceFrame (l : Layout) (buffer : UInt32) :
    Glance (Sight ε) (Except ComposeError Frame) :=
  if l.fitsAt buffer then do
    let status ← see fun s => readStatus s.engine l
    match status with
    | .error error => pure (.error (.engine error))
    | .ok status =>
      let palette ← see fun s => readPalette s.engine l
      match palette with
      | .error error => pure (.error (.engine error))
      | .ok palette => glancePixels l buffer status palette
  else pure (.error (.tooLarge buffer l.width l.height))

/-- All that a tick looks at. -/
def glance (l : Layout) : Glance (Sight ε) Verdict := do
  let powered ← see fun s => Engine.powered s.engine
  if powered then
    let ready ← glanceReady l
    if ready then
      let frame ← glanceFrame l l.base
      match frame with
      | .ok frame => pure (.composed frame)
      | .error _ => pure .nothing
    else pure .nothing
  else pure .off

/-- What a worker makes of a verdict: the frame to be published, and what it
remembers. -/
def Worker.judge (w : Worker) : Verdict → Option Frame × Worker
  | .off =>
    (if w.showingOff then none else some (w.layout.plain offColor),
      { w with showingOff := true })
  | .nothing => (none, { w with showingOff := false })
  | .composed frame => (some frame, { w with showingOff := false })

/-! ## An engine that stays as it is -/

section Still

variable (e : ε) (l : Layout) (cancelled : Bool)

theorem still_glanceReady : (glanceReady l).still ⟨e, cancelled⟩ = mayTake e l := by
  unfold glanceReady mayTake
  cases l.frameSwap with
  | false => rfl
  | true =>
    simp only [↓reduceIte, still_bind, still_see]
    cases readStatus e l <;> rfl

theorem still_glanceRows (buffer : UInt32) (palette : Array Color) (left : Nat) (y : UInt32)
    (pixels : Array Color) :
    (glanceRows l buffer palette left y pixels).still ⟨e, cancelled⟩ =
      composeRows e l buffer palette cancelled left y pixels := by
  induction left generalizing y pixels with
  | zero => rfl
  | succ left ih =>
    simp only [glanceRows, composeRows, still_bind, still_see]
    cases cancelled with
    | true => rfl
    | false =>
      simp only [Bool.false_eq_true, ↓reduceIte, still_bind, still_see]
      cases Engine.readBlock e (l.rowAddress buffer y) l.width.toNat with
      | error error => rfl
      | ok row => exact ih _ _

theorem still_glanceFrame (buffer : UInt32) :
    (glanceFrame l buffer).still ⟨e, cancelled⟩ = composeUnless cancelled e l buffer := by
  unfold glanceFrame composeUnless
  cases l.fitsAt buffer with
  | false => rfl
  | true =>
    simp only [↓reduceIte, still_bind, still_see]
    cases readStatus e l with
    | error error => rfl
    | ok status =>
      simp only [still_bind, still_see]
      cases readPalette e l with
      | error error => rfl
      | ok palette =>
        simp only [glancePixels]
        cases status.fill with
        | true =>
          simp only [↓reduceIte, still_bind, still_see]
          cases Engine.readByte e buffer <;> rfl
        | false => simp [still_glanceRows]

theorem still_glance :
    (glance l).still ⟨e, cancelled⟩ =
      if Engine.powered e then
        if mayTake e l then
          match composeUnless cancelled e l l.base with
          | .ok frame => .composed frame
          | .error _ => .nothing
        else .nothing
      else .off := by
  rw [glance, still_bind, still_see]
  cases Engine.powered e with
  | false => rfl
  | true =>
    rw [if_pos rfl, if_pos rfl, still_bind, still_glanceReady]
    cases mayTake e l with
    | false => rfl
    | true =>
      rw [if_pos rfl, if_pos rfl, still_bind, still_glanceFrame]
      cases composeUnless cancelled e l l.base <;> rfl

/-- On an engine that stays as it is, a tick shows the frame that it has to show
and leaves what it has to leave. -/
theorem judge_still (w : Worker) :
    w.judge ((glance w.layout).still ⟨e, cancelled⟩) =
      (w.frame? e cancelled, { w with showingOff := !Engine.powered e }) := by
  rw [still_glance, Worker.frame?]
  cases Engine.powered e with
  | false => rfl
  | true =>
    cases mayTake e w.layout with
    | false => rfl
    | true => cases composeUnless cancelled e w.layout w.layout.base <;> rfl

end Still

/-! ## A task that may be cancelled meanwhile -/

section Cancelled

variable {e : ε}

theorem calm_glanceReady (l : Layout) : Calm e (fun _ => True) (glanceReady l) := by
  unfold glanceReady
  split
  · refine calm_look (fun _ => rfl) fun status => ?_
    cases status <;> exact calm_pure _
  · exact calm_pure _

/-- Rows that were all composed were not cancelled. -/
theorem calm_glanceRows (l : Layout) (buffer : UInt32) (palette : Array Color) (left : Nat)
    (y : UInt32) (pixels : Array Color) :
    Calm e (fun rows => rows.isOk = true) (glanceRows l buffer palette left y pixels) := by
  induction left generalizing y pixels with
  | zero => exact calm_pure _
  | succ left ih =>
    unfold glanceRows
    refine calm_bind (A := fun cancelled => cancelled = false) (calm_see fun _ h => h.symm)
      (fun cancelled seen rows hafter hrows => ?_) fun cancelled hcancelled => ?_
    · cases cancelled with
      | false => rfl
      | true =>
        rw [if_pos rfl, Glance.after_pure] at hafter
        cases hafter
        cases hrows
    · subst hcancelled
      refine calm_look (fun _ => rfl) fun row => ?_
      cases row with
      | error error => exact calm_pure _
      | ok row => exact ih _ _

theorem calm_glancePixels (l : Layout) (buffer : UInt32) (status : Status)
    (palette : Array Color) :
    Calm e (fun frame => frame.isOk = true) (glancePixels l buffer status palette) := by
  unfold glancePixels
  cases status.fill with
  | true =>
    refine calm_look (fun _ => rfl) fun index => ?_
    cases index <;> exact calm_pure _
  | false =>
    refine calm_bind (calm_glanceRows l buffer palette l.height.toNat 0 #[])
      (fun pixels seen frame hafter hframe => ?_) fun _ _ => calm_pure _
    rw [Glance.after_pure] at hafter
    cases hafter
    cases pixels with
    | error error => cases hframe
    | ok pixels => rfl

theorem calm_glanceFrame (l : Layout) (buffer : UInt32) :
    Calm e (fun frame => frame.isOk = true) (glanceFrame l buffer) := by
  unfold glanceFrame
  split
  · refine calm_look (fun _ => rfl) fun status => ?_
    cases status with
    | error error => exact calm_pure _
    | ok status =>
      refine calm_look (fun _ => rfl) fun palette => ?_
      cases palette with
      | error error => exact calm_pure _
      | ok palette => exact calm_glancePixels l buffer status palette
  · exact calm_pure _

/-- What a tick finds to publish on an engine that stays as it is, it finds as
well if it is never cancelled. -/
theorem calm_glance (l : Layout) : Calm e (fun verdict => verdict ≠ .nothing) (glance l) := by
  unfold glance
  refine calm_look (fun _ => rfl) fun powered => ?_
  cases powered with
  | false => exact calm_pure _
  | true =>
    refine calm_bind (calm_glanceReady l) (fun _ _ _ _ _ => trivial) fun ready _ => ?_
    cases ready with
    | false => exact calm_pure _
    | true =>
      refine calm_bind (calm_glanceFrame l l.base) (fun frame seen verdict hafter hverdict => ?_)
        fun frame _ => ?_
      · cases frame with
        | ok frame => rfl
        | error error =>
          rw [Glance.after_pure] at hafter
          cases hafter
          exact absurd rfl hverdict
      · cases frame <;> exact calm_pure _

end Cancelled

end Screen

end Monitor68
