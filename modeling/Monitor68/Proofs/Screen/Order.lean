import Monitor68.Proofs.Screen.Studio

/-!
# The order among the threads of a screen

`Orderly` is what the threads of a screen and its owner keep at every
moment: only the newest thread may still be at work, it looks at the
engine behind the screen, what it is about to publish follows from what it
saw, and the listener is behind the published frames by no more than the
frame that this thread holds in its hands.

`Around` is what the owner may count on between two of its steps.
`Orderly.moves` says that every step of a thread keeps the order and does
no more than the owner counts on.

A frame is made from several looks, and each look finds the engine as it
is at some moment.  `LookedAt` says at which moments the looks were taken,
and `Orderly.fresh_moves` how a step of a thread adds to them.
-/

namespace Monitor68.Screen

open Script
open RepeatingTask (Loop)

variable {ι ε : Type}

/-! ## What is published -/

/-- Whether a frame follows from a verdict. -/
def Verdict.Shows (l : Layout) (frame : Frame) : Verdict → Prop
  | .off => frame = l.plain offColor
  | .nothing => False
  | .composed found => found = frame

theorem layout_judge (w : Worker) (verdict : Verdict) :
    (w.judge verdict).2.layout = w.layout := by
  cases verdict <;> rfl

theorem shows_of_judge {w : Worker} {verdict : Verdict} {frame : Frame}
    (h : (w.judge verdict).1 = some frame) : verdict.Shows w.layout frame := by
  cases verdict with
  | off =>
    cases hoff : w.showingOff <;> simp [Worker.judge, hoff] at h
    exact h.symm
  | nothing => cases h
  | composed found => exact Option.some.inj h

/-- What a thread has published and not yet shown to the listener. -/
def TickStage.owed (m : Mailbox) : TickStage ε → List Frame
  | .fetching _ => [m.latest]
  | .calling frame _ => [frame]
  | _ => []

theorem owed_stage (w : Worker) (seen : List (Sight ε)) (verdict : Verdict) (m : Mailbox) :
    (w.stage seen verdict).owed m = [] := by
  unfold Worker.stage
  cases (w.judge verdict).1 <;> rfl

namespace Studio

/-- What was published and not yet shown to the listener. -/
def owed (s : Studio ι ε) : List Frame :=
  match s.newest with
  | none => []
  | some w => w.stage.owed s.mailbox

/-- The listener was shown what was published, but for what it is owed. -/
def Accounts (s : Studio ι ε) (owed : List Frame) : Prop :=
  if s.listening then s.published.map Publication.frame = s.heard ++ owed
  else s.heard = [] ∧ owed = []

theorem owed_eq_nil {s : Studio ι ε} (h : ∀ w ∈ s.newest, w.stage = .outside) : s.owed = [] := by
  unfold owed
  cases hw : s.newest with
  | none => rfl
  | some w =>
    have hstage : w.stage = .outside := h w hw
    simp only [hstage, TickStage.owed]

theorem quiet_onTask {f : Loop → Loop} (s : Studio ι ε) (hplace : ∀ l, (f l).place = l.place) :
    (s.onTask f).quiet = s.quiet := by
  unfold quiet onTask
  cases s.newest with
  | none => rfl
  | some w => simp [hplace]

theorem held_onTask {f : Loop → Loop} (s : Studio ι ε) (hheld : ∀ l, (f l).held = l.held) :
    (s.onTask f).held = s.held := by
  unfold held onTask
  cases s.newest with
  | none => rfl
  | some w => simp [hheld]

theorem accounts_hear {s : Studio ι ε} {frame : Frame} (h : s.Accounts [frame]) :
    (s.hear frame).Accounts [] := by
  unfold Studio.Accounts at h ⊢
  cases hlistening : s.listening with
  | false => simp [hlistening] at h
  | true => simpa [Studio.hear, hlistening] using h

end Studio

/-! ## When it was seen -/

/-- The looks were taken one after the other, each at one of these moments and
at an engine that was behind the screen then. -/
def LookedAt (moments : List (Studio ι ε)) (source : ι) (seen : List (Sight ε)) : Prop :=
  ∃ looked : List (Studio ι ε), looked.Sublist moments ∧ (∀ s ∈ looked, s.engine = source) ∧
    seen.map Sight.engine = looked.map fun s => s.engines source

namespace LookedAt

variable {moments : List (Studio ι ε)} {source : ι} {seen : List (Sight ε)} {s : Studio ι ε}

theorem nil (moments : List (Studio ι ε)) (source : ι) : LookedAt moments source [] :=
  ⟨[], List.nil_sublist _, by simp, rfl⟩

/-- Time passes. -/
theorem later (h : LookedAt moments source seen) (s : Studio ι ε) :
    LookedAt (moments ++ [s]) source seen := by
  obtain ⟨looked, hsublist, hengine, hseen⟩ := h
  exact ⟨looked, hsublist.trans (List.sublist_append_left _ _), hengine, hseen⟩

/-- One more look. -/
theorem concat (h : LookedAt moments source seen) (hengine : s.engine = source)
    {x : Sight ε} (hx : x.engine = s.engines source) :
    LookedAt (moments ++ [s]) source (seen ++ [x]) := by
  obtain ⟨looked, hsublist, hlooked, hseen⟩ := h
  refine ⟨looked ++ [s], hsublist.append (.refl _), ?_, ?_⟩
  · exact List.forall_mem_append.2 ⟨hlooked, List.forall_mem_singleton.2 hengine⟩
  · rw [List.map_append, List.map_append, hseen, List.map_singleton, List.map_singleton, hx]

/-- An engine that stayed as it was is all there was to see. -/
theorem engine_eq (h : LookedAt moments source seen) {e : ε}
    (hstays : ∀ s ∈ moments, s.engine = source → s.engines source = e) :
    ∀ x ∈ seen, x.engine = e := by
  obtain ⟨looked, hsublist, hlooked, hseen⟩ := h
  intro x hx
  have hmem : x.engine ∈ looked.map fun s => s.engines source := by
    rw [← hseen]
    exact List.mem_map_of_mem hx
  obtain ⟨s, hs, hengine⟩ := List.mem_map.1 hmem
  rw [← hengine]
  exact hstays s (hsublist.subset hs) (hlooked s hs)

end LookedAt

/-- What was seen for what is in hand. -/
def TickStage.seen : TickStage ε → List (Sight ε)
  | .looking seen _ => seen
  | .publishing _ _ seen => seen
  | _ => []

namespace Studio

variable {s : Studio ι ε} {moments : List (Studio ι ε)}

/-- The newest thread has looked at its engine at these moments only. -/
def Fresh (moments : List (Studio ι ε)) (s : Studio ι ε) : Prop :=
  ∀ w ∈ s.newest, LookedAt moments w.source w.stage.seen

theorem Fresh.later (h : s.Fresh moments) (u : Studio ι ε) :
    s.Fresh (moments ++ [u]) :=
  fun w hw => (h w hw).later u

/-- A thread outside its ticks has not looked at anything. -/
theorem fresh_of_outside (h : ∀ w ∈ s.newest, w.stage = .outside) : s.Fresh moments := by
  intro w hw
  rw [h w hw]
  exact .nil _ _

end Studio

/-! ## What follows from it -/

variable [Engine ε]

/-- Whether a frame follows from what was seen. -/
def ComposedFrom (l : Layout) (frame : Frame) (seen : List (Sight ε)) : Prop :=
  ∃ verdict, (glance l).after seen = .answer verdict ∧ verdict.Shows l frame

/-- What follows from looks at an engine that stays as it is, is what a tick
shows of it. -/
theorem ComposedFrom.frame?_eq {l : Layout} {frame : Frame} {seen : List (Sight ε)} {e : ε}
    (h : ComposedFrom l frame seen) (hseen : ∀ x ∈ seen, x.engine = e) :
    Worker.frame? { layout := l } e false = some frame := by
  obtain ⟨verdict, hafter, hshows⟩ := h
  have hpublishes : verdict ≠ .nothing := by
    rintro rfl
    exact hshows
  have hjudge := judge_still e false { layout := l }
  rw [calm_glance l seen verdict hseen hafter hpublishes] at hjudge
  have hframe : (Worker.judge { layout := l } verdict).1 = some frame := by
    cases verdict with
    | off => exact congrArg some hshows.symm
    | nothing => exact absurd rfl hpublishes
    | composed found => exact congrArg some hshows
  rw [hjudge] at hframe
  exact hframe

/-! ## What the threads keep -/

/-- Whether what a thread is about to do follows from what it saw. -/
def TickStage.Sound (l : Layout) : TickStage ε → Prop
  | .looking seen rest => (glance l).after seen = rest
  | .publishing frame _ seen => ComposedFrom l frame seen
  | _ => True

/-- A thread that has come to its end. -/
def Thread.Gone (w : Thread ι ε) : Prop := w.loop.place = .finished ∧ w.stage = .outside

/-- What holds of a thread while it is the newest. -/
structure Thread.Sound (s : Studio ι ε) (w : Thread ι ε) : Prop where
  layout : w.worker.layout = s.layout
  source : w.loop.place ≠ .finished → w.source = s.engine
  ticking : w.stage ≠ .outside → w.loop.place = .ticking
  stage : w.stage.Sound s.layout

namespace Studio

/-- What holds at every moment. -/
structure Orderly (s : Studio ι ε) : Prop where
  earlier : ∀ w ∈ s.earlier, w.Gone
  newest : ∀ w ∈ s.newest, w.Sound s
  composed : ∀ p ∈ s.published, ComposedFrom s.layout p.frame p.seen
  account : s.Accounts s.owed

end Studio

namespace Thread

variable {s s' : Studio ι ε} {w w' : Thread ι ε}

/-- A thread outside its ticks has nothing in its hands. -/
theorem Sound.outside (h : w.Sound s) (hplace : w.loop.place ≠ .ticking) :
    w.stage = .outside := by
  by_contra hstage
  exact hplace (h.ticking hstage)

theorem Sound.place_of_stage {stage : TickStage ε} (h : w.Sound s) (hstage : w.stage = stage)
    (hinside : stage ≠ .outside) : w.loop.place = .ticking :=
  h.ticking (by rwa [hstage])

variable [DecidableEq ι]

/-- What no step of a thread touches. -/
theorem Step.untouched (h : w.Step s s' w') :
    s'.layout = s.layout ∧ s'.engine = s.engine ∧ s'.listening = s.listening ∧ s'.on = s.on ∧
      s'.earlier = s.earlier ∧ w'.source = w.source ∧ w'.worker.layout = w.worker.layout := by
  cases h with
  | judge h => exact ⟨rfl, rfl, rfl, rfl, rfl, rfl, layout_judge _ _⟩
  | _ => exact ⟨rfl, rfl, rfl, rfl, rfl, rfl, rfl⟩

theorem Step.held (h : w.Step s s' w') : w'.loop.held = w.loop.held := by
  cases h with
  | look hloop => cases hloop; rfl
  | wake hloop => cases hloop; rfl
  | begin hloop => cases hloop; rfl
  | crash _ hloop => cases hloop; rfl
  | finish _ hloop => cases hloop; rfl
  | _ => rfl

theorem Step.not_gone (h : w.Step s s' w') : ¬ w.Gone := by
  rintro ⟨hplace, hstage⟩
  cases h with
  | look hloop =>
    cases hloop with
    | look h => cases hplace.symm.trans h
  | wake hloop =>
    cases hloop with
    | wake h => cases hplace.symm.trans h
  | begin hloop =>
    cases hloop with
    | begin h => cases hplace.symm.trans h
  | see h => cases hstage.symm.trans h
  | judge h => cases hstage.symm.trans h
  | publish h => cases hstage.symm.trans h
  | fetch h => cases hstage.symm.trans h
  | call h => cases hstage.symm.trans h
  | crash h _ => cases hstage.symm.trans h
  | interrupt h => cases hstage.symm.trans h
  | finish h _ => cases hstage.symm.trans h

/-- A sound thread that takes a step is at work. -/
theorem Sound.at_work (h : w.Sound s) (hstep : w.Step s s' w') : w.loop.place ≠ .finished := by
  intro hplace
  exact hstep.not_gone ⟨hplace, h.outside (by simp [hplace])⟩

/-- What a thread holds in its hands after a step follows from what it saw, and
it holds something only inside a tick. -/
theorem Sound.stage_step (h : w.Sound s) (hstep : w.Step s s' w') :
    w'.stage.Sound s.layout ∧ (w'.stage ≠ .outside → w'.loop.place = .ticking) := by
  cases hstep with
  | look hloop =>
    cases hloop with
    | look hplace =>
      have hstage := h.outside (by simp [hplace])
      exact ⟨h.stage, fun hinside => absurd hstage hinside⟩
  | wake hloop =>
    cases hloop with
    | wake hplace =>
      have hstage := h.outside (by simp [hplace])
      exact ⟨h.stage, fun hinside => absurd hstage hinside⟩
  | begin hloop =>
    cases hloop
    refine ⟨?_, fun _ => rfl⟩
    exact (Glance.after_nil _).trans (congrArg glance h.layout.symm)
  | see hstage =>
    have hafter := h.stage
    rw [hstage] at hafter
    exact ⟨Glance.after_concat hafter, fun _ => h.place_of_stage hstage (by simp)⟩
  | @judge seen verdict hstage =>
    have hafter := h.stage
    rw [hstage] at hafter
    refine ⟨?_, fun _ => h.place_of_stage hstage (by simp)⟩
    show (w.worker.stage seen verdict).Sound s.layout
    unfold Worker.stage
    cases hframe : (w.worker.judge verdict).1 with
    | none => trivial
    | some frame => exact ⟨verdict, hafter, h.layout ▸ shows_of_judge hframe⟩
  | publish hstage =>
    refine ⟨?_, fun _ => h.place_of_stage hstage (by simp)⟩
    show TickStage.Sound s.layout (if s.listening then _ else _)
    split <;> trivial
  | fetch hstage => exact ⟨trivial, fun _ => h.place_of_stage hstage (by simp)⟩
  | call hstage => exact ⟨trivial, fun _ => h.place_of_stage hstage (by simp)⟩
  | crash _ _ => exact ⟨trivial, fun hinside => absurd rfl hinside⟩
  | interrupt hstage => exact ⟨trivial, fun _ => h.place_of_stage hstage (by simp)⟩
  | finish _ _ => exact ⟨trivial, fun hinside => absurd rfl hinside⟩

theorem Sound.step (h : w.Sound s) (hstep : w.Step s s' w') : w'.Sound s' := by
  obtain ⟨hlayout, hengine, -, -, -, hsource, hworker⟩ := hstep.untouched
  obtain ⟨hstage, hticking⟩ := h.stage_step hstep
  refine ⟨?_, fun _ => ?_, hticking, ?_⟩
  · rw [hworker, hlayout, h.layout]
  · rw [hsource, hengine, h.source (h.at_work hstep)]
  · rwa [hlayout]

/-- What a step adds to what was published. -/
theorem Sound.published_step (h : w.Sound s) (hstep : w.Step s s' w') :
    ∃ new, s'.published = s.published ++ new ∧
      ∀ p ∈ new, p.source = w.source ∧ p.seen = w.stage.seen ∧
        ComposedFrom s.layout p.frame p.seen := by
  cases hstep with
  | @publish frame raises seen hstage =>
    refine ⟨[_], rfl, fun p hp => ?_⟩
    obtain rfl := List.mem_singleton.1 hp
    have hcomposed := h.stage
    rw [hstage] at hcomposed ⊢
    exact ⟨rfl, rfl, hcomposed⟩
  | _ => exact ⟨[], (List.append_nil _).symm, by simp⟩

/-- A look of a thread is a look at the engine behind the screen, as it is at
that moment. -/
theorem Sound.looked_step {moments : List (Studio ι ε)} (h : w.Sound s) (hstep : w.Step s s' w')
    (hlooked : LookedAt moments w.source w.stage.seen) :
    LookedAt (moments ++ [s]) w'.source w'.stage.seen := by
  cases hstep with
  | look _ => exact hlooked.later s
  | wake _ => exact hlooked.later s
  | begin _ => exact .nil _ _
  | see hstage =>
    rw [hstage] at hlooked
    have hplace := h.place_of_stage hstage (by simp)
    exact hlooked.concat (h.source (by simp [hplace])).symm rfl
  | judge hstage =>
    rw [hstage] at hlooked
    show LookedAt (moments ++ [s]) w.source (w.worker.stage _ _).seen
    unfold Worker.stage
    split
    · exact .nil _ _
    · exact hlooked.later s
  | publish _ =>
    show LookedAt (moments ++ [s]) w.source (TickStage.seen (if s.listening then _ else _))
    split <;> exact .nil _ _
  | _ => exact .nil _ _

/-- A step of a thread keeps its account with the listener. -/
theorem Sound.account_step (h : w.Sound s) (hstep : w.Step s s' w')
    (haccount : s.Accounts (w.stage.owed s.mailbox)) : s'.Accounts (w'.stage.owed s'.mailbox) := by
  cases hstep with
  | look _ => exact haccount
  | wake _ => exact haccount
  | begin hloop =>
    have hstage : w.stage = .outside := by
      cases hloop with
      | begin hplace => exact h.outside (by simp [hplace])
    rwa [hstage] at haccount
  | see hstage => rwa [hstage] at haccount
  | judge hstage =>
    rw [hstage] at haccount
    rwa [owed_stage]
  | publish hstage =>
    rw [hstage] at haccount
    unfold Studio.Accounts at haccount ⊢
    cases hlistening : s.listening <;>
      simpa [Studio.publish, Mailbox.publish, TickStage.owed, hlistening] using haccount
  | fetch hstage => rwa [hstage] at haccount
  | call hstage =>
    rw [hstage] at haccount
    exact Studio.accounts_hear haccount
  | crash hstage _ =>
    rw [hstage] at haccount
    exact Studio.accounts_hear haccount
  | interrupt hstage => rwa [hstage] at haccount
  | finish hstage _ => rwa [hstage] at haccount

end Thread

namespace Studio

variable {s t : Studio ι ε}

/-- A thread is sound by the layout and the engine of its screen. -/
theorem sound_congr {w : Thread ι ε} (h : w.Sound s) (hlayout : t.layout = s.layout)
    (hengine : t.engine = s.engine) : w.Sound t := by
  obtain ⟨hl, hsource, hticking, hstage⟩ := h
  exact ⟨hl.trans hlayout.symm, fun hplace => (hsource hplace).trans hengine.symm, hticking,
    hlayout ▸ hstage⟩

/-- What the owner may count on between two of its steps.  When the threads
have come to an end, nothing is published and nothing heard. -/
structure Around (s t : Studio ι ε) : Prop where
  layout : t.layout = s.layout
  engine : t.engine = s.engine
  on : t.on = s.on
  held : t.held = s.held
  threads : t.threads.length = s.threads.length
  quiet : s.quiet = true → t.quiet = true ∧ t.mailbox = s.mailbox ∧ t.published = s.published ∧
    t.heard = s.heard

/-- What happens besides the owner keeps the order. -/
theorem Orderly.moves [DecidableEq ι] (h : s.Orderly) (hmove : Moves s t) :
    t.Orderly ∧ Around s t ∧ t.listening = s.listening := by
  cases hmove with
  | @newest s' w w' hw hstep =>
    have hsound : w.Sound s := h.newest w (by rw [hw]; rfl)
    obtain ⟨hlayout, hengine, hlistening, hon, hearlier, -, -⟩ := hstep.untouched
    obtain ⟨new, hpublished, hnew⟩ := hsound.published_step hstep
    refine ⟨⟨?_, ?_, ?_, ?_⟩, ⟨hlayout, hengine, hon, ?_, ?_, ?_⟩, hlistening⟩
    · rw [hearlier]
      exact h.earlier
    · intro _ hv
      cases hv
      exact sound_congr (hsound.step hstep) rfl rfl
    · intro p hp
      rw [hpublished, List.mem_append] at hp
      rw [hlayout]
      exact hp.elim (h.composed p) fun hp => (hnew p hp).2.2
    · have haccount := h.account
      rw [owed, hw] at haccount
      have haccount' := hsound.account_step hstep haccount
      exact haccount'
    · simp only [held, hw, Option.any_some, hstep.held]
    · simp [threads, hw, hearlier]
    · intro hquiet
      have hplace : w.loop.place = .finished := by simpa [quiet, hw] using hquiet
      exact absurd hplace (hsound.at_work hstep)
  | earlier hw hstep =>
    exact absurd (h.earlier _ (by simp [hw])) hstep.not_gone
  | outside engines =>
    exact ⟨⟨h.earlier, fun w hw => sound_congr (h.newest w hw) rfl rfl, h.composed, h.account⟩,
      ⟨rfl, rfl, rfl, rfl, rfl, fun hquiet => ⟨hquiet, rfl, rfl, rfl⟩⟩, rfl⟩

/-- Then the newest thread has looked at its engine at that moment besides, and
whatever is published follows from its looks before. -/
theorem Orderly.fresh_moves [DecidableEq ι] {moments : List (Studio ι ε)} (h : s.Orderly)
    (hmove : Moves s t) (hfresh : s.Fresh moments) :
    t.Fresh (moments ++ [s]) ∧ ∃ new, t.published = s.published ++ new ∧
      ∀ p ∈ new, p.source = s.engine ∧ LookedAt moments p.source p.seen := by
  cases hmove with
  | @newest s' w w' hw hstep =>
    have hsound : w.Sound s := h.newest w (by rw [hw]; rfl)
    have hlooked : LookedAt moments w.source w.stage.seen := hfresh w (by rw [hw]; rfl)
    obtain ⟨new, hpublished, hnew⟩ := hsound.published_step hstep
    refine ⟨?_, new, hpublished, fun p hp => ?_⟩
    · intro _ hv
      cases hv
      exact hsound.looked_step hstep hlooked
    · obtain ⟨hsource, hseen, -⟩ := hnew p hp
      rw [hsource, hseen]
      exact ⟨hsound.source (hsound.at_work hstep), hlooked⟩
  | earlier hw hstep =>
    exact absurd (h.earlier _ (by simp [hw])) hstep.not_gone
  | outside engines => exact ⟨hfresh.later s, [], (List.append_nil _).symm, by simp⟩

end Studio

end Monitor68.Screen
