import Monitor68.Proofs.Threads.Session

/-!
# Courses of a system

What a reader of a system can say of its past is a matter of all the
systems that it went through, and not of the last one alone.  A `Course`
is a list of systems, each of which comes from the one before it by a step
of some thread.

An operation in progress takes steps of its own while the other threads
move.  `Step.of_act` and `Step.of_done` say what a step can be as long as
the owner is busy, and `Headed` carries what a script ensures along a
course.

`Serves` is for properties of the session that every operation keeps: they
hold between two operations, and during one the rest of its script leads
back to them.
-/

namespace Monitor68

open Script Relation

namespace System

variable {ε τ : Type} [Engine ε] [Threaded ε τ]

/-- A system becomes another one by steps of any threads.  The list has all
systems on the way, both ends included. -/
inductive Course (y : System ε τ) : List (System ε τ) → System ε τ → Prop where
  | here : Course y [y] y
  | step {ys : List (System ε τ)} {y' y'' : System ε τ} {thread : Thread}
      (path : Course y ys y') (hstep : Step thread y' y'') : Course y (ys ++ [y'']) y''

section Courses

variable {y y' : System ε τ} {ys : List (System ε τ)}

theorem Course.first_mem (h : Course y ys y') : y ∈ ys := by
  induction h with
  | here => exact List.mem_singleton_self _
  | step _ _ ih => exact List.mem_append_left _ ih

theorem Course.last_mem (h : Course y ys y') : y' ∈ ys := by
  cases h with
  | here => exact List.mem_singleton_self _
  | step _ _ => exact List.mem_append_right _ (List.mem_singleton_self _)

/-- Every system that can be reached is the end of a course. -/
theorem exists_course (h : Reachable y) :
    ∃ settings fresh ys, Threaded.Made fresh ∧ Course (start settings fresh) ys y := by
  induction h with
  | @start settings fresh hmade => exact ⟨settings, fresh, _, hmade, .here⟩
  | step _ hstep ih =>
    obtain ⟨settings, fresh, ys, hmade, path⟩ := ih
    exact ⟨settings, fresh, _, hmade, path.step hstep⟩

end Courses

/-- A step of another thread than the owner. -/
theorem Step.moves {y y' : System ε τ} {thread : Thread} (h : Step thread y y')
    (hthread : thread ≠ .owner) : World.Moves y.world y'.world := by
  cases h with
  | engine hmove => exact .engine hmove
  | poll hphase => exact .poll hphase
  | _ => exact absurd rfl hthread

/-! ## Steps during an operation -/

section Busy

variable {w : World ε τ} {y' : System ε τ} {thread : Thread}

/-- While the owner has a step to take, it takes it or another thread
moves. -/
theorem Step.of_act {ready : World ε τ → Bool} {effect : World ε τ → World ε τ}
    {next : World ε τ → Script (World ε τ) (Except SessionError Unit)}
    (h : Step thread ⟨w, .busy (.act ready effect next)⟩ y') :
    ready w = true ∧ y' = ⟨effect w, .busy (next w)⟩ ∨
    ∃ w', World.Moves w w' ∧ y' = ⟨w', .busy (.act ready effect next)⟩ := by
  cases h with
  | act hready => exact .inl ⟨hready, rfl⟩
  | engine hmove => exact .inr ⟨_, .engine hmove, rfl⟩
  | poll hphase => exact .inr ⟨_, .poll hphase, rfl⟩

/-- The same if the step of the owner is a look at the world. -/
theorem Step.of_look {α : Type} {f : World ε τ → α}
    {k : α → Script (World ε τ) (Except SessionError Unit)}
    (h : Step thread ⟨w, .busy (look f >>= k)⟩ y') :
    y' = ⟨w, .busy (k (f w))⟩ ∨
    ∃ w', World.Moves w w' ∧ y' = ⟨w', .busy (look f >>= k)⟩ := by
  rcases Step.of_act h with ⟨-, rfl⟩ | hmoved
  · exact .inl rfl
  · exact .inr hmoved

/-- When the owner has an answer, it is idle with the next step of its own. -/
theorem Step.of_done {answer : Except SessionError Unit}
    (h : Step thread ⟨w, .busy (.done answer)⟩ y') :
    y' = ⟨w, .idle⟩ ∨ ∃ w', World.Moves w w' ∧ y' = ⟨w', .busy (.done answer)⟩ := by
  cases h with
  | finish => exact .inl rfl
  | engine hmove => exact .inr ⟨_, .engine hmove, rfl⟩
  | poll hphase => exact .inr ⟨_, .poll hphase, rfl⟩

/-- Whatever the operation in progress still does, it ends as `Q` says if the
others move by `R`. -/
def Headed (R : World ε τ → World ε τ → Prop)
    (Q : Except SessionError Unit → World ε τ → Prop) (y : System ε τ) : Prop :=
  ∃ rest, y.owner = .busy rest ∧ Ensures R (fun _ _ => True) Q rest y.world

variable {R : World ε τ → World ε τ → Prop} {Q : Except SessionError Unit → World ε τ → Prop}

/-- That stays so until the owner is idle. -/
theorem Headed.step {y : System ε τ} (h : Headed R Q y) (hstep : Step thread y y')
    (hR : ∀ w', World.Moves y.world w' → R y.world w') (hbusy : y'.owner ≠ .idle) :
    Headed R Q y' := by
  obtain ⟨w, owner⟩ := y
  obtain ⟨rest, rfl, hrest⟩ := h
  cases rest with
  | done answer =>
    rcases hstep.of_done with rfl | ⟨w', hmove, rfl⟩
    · exact absurd rfl hbusy
    · exact ⟨_, rfl, hrest.moved (hR w' hmove)⟩
  | act ready effect next =>
    rcases hstep.of_act with ⟨hready, rfl⟩ | ⟨w', hmove, rfl⟩
    · exact ⟨_, rfl, (hrest w .refl hready).2⟩
    · exact ⟨_, rfl, hrest.moved (hR w' hmove)⟩

omit [Engine ε] [Threaded ε τ] in
theorem Headed.done {answer : Except SessionError Unit}
    (h : Headed R Q ⟨w, .busy (.done answer)⟩) : Q answer w := by
  obtain ⟨rest, howner, hrest⟩ := h
  cases howner
  exact hrest w .refl

end Busy

/-! ## What every operation keeps -/

/-- Between two operations the world is as it should be, and during one the
rest of its script keeps its promise and leads there again. -/
structure Serves (S : World ε τ → Prop) (G : World ε τ → World ε τ → Prop) (y : System ε τ) :
    Prop where
  idle : y.owner = .idle → S y.world
  busy : ∀ rest, y.owner = .busy rest → Ensures World.Moves G (fun _ => S) rest y.world

section Serves

variable {S : World ε τ → Prop} {G : World ε τ → World ε τ → Prop} {y y' : System ε τ}

/-- The step lemma. -/
theorem Serves.step (h : Serves S G y) {thread : Thread} (hstep : Step thread y y')
    (hstable : Stable World.Moves S)
    (hscript : ∀ (w : World ε τ) request, S w →
      Ensures World.Moves G (fun _ => S) (World.script w.session.settings request) w)
    (hsupply : ∀ (w : World ε τ) fresh, Threaded.Made fresh → S w →
      S { w with session := { w.session with fresh } }) : Serves S G y' := by
  have hmoved : ∀ {w w' : World ε τ} {owner : Owner ε τ}, World.Moves w w' →
      Serves S G ⟨w, owner⟩ → Serves S G ⟨w', owner⟩ := fun hmove h =>
    ⟨fun howner => hstable _ _ (h.idle howner) hmove,
      fun rest howner => (h.busy rest howner).moved hmove⟩
  cases hstep with
  | engine hmove => exact hmoved (.engine hmove) h
  | poll hphase => exact hmoved (.poll hphase) h
  | @begin w request =>
    refine ⟨by simp, ?_⟩
    intro rest howner
    cases howner
    exact hscript w request (h.idle rfl)
  | act hready =>
    refine ⟨by simp, ?_⟩
    intro rest howner
    cases howner
    exact (h.busy _ rfl _ .refl hready).2
  | finish => exact ⟨fun _ => h.busy _ rfl _ .refl, by simp⟩
  | supply hmade => exact ⟨fun _ => hsupply _ _ hmade (h.idle rfl), by simp⟩

/-- A step of the owner is one that it promised, or it changes nothing but
the engines to come. -/
theorem Serves.promised (h : Serves S G y) (hstep : Step .owner y y') :
    G y.world y'.world ∨
    ∃ fresh, y'.world = { y.world with session := { y.world.session with fresh } } := by
  cases hstep with
  | act hready => exact .inl (h.busy _ rfl _ .refl hready).1
  | begin request => exact .inr ⟨_, rfl⟩
  | finish => exact .inr ⟨_, rfl⟩
  | supply _ => exact .inr ⟨_, rfl⟩

end Serves

end System

end Monitor68
