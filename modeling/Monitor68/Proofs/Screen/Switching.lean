import Monitor68.Proofs.Screen.Order
import Monitor68.Screen.Display

/-!
# Switching a screen

The owner of a screen promises with each of its steps to keep the order
among the threads, and to leave the published frames and the listener
alone (`Cares`).  So a thread is started only when the earlier one has
come to an end, and black is shown only when nobody is owed a frame.  The
owner looks at no engine: a step of it leaves the newest thread where it
is in its tick, or puts a new one in its place (`Relieved`).

The specifications say of each operation in which state of the screen it
begins and in which it ends, whatever the threads do meanwhile.
-/

namespace Monitor68.Screen

open Script
open RepeatingTask (Loop)

variable {ι ε : Type}

namespace Studio

variable {s t : Studio ι ε}

/-! ## The newest thread -/

/-- The newest thread is where it was inside its tick, or it is a new one. -/
inductive Relieved (s t : Studio ι ε) : Prop where
  | same (hthreads : t.threads.length = s.threads.length)
      (hnewest : ∀ w ∈ t.newest, ∃ v ∈ s.newest, w.source = v.source ∧ w.stage = v.stage)
  | new (hthreads : t.threads.length = s.threads.length + 1)
      (houtside : ∀ w ∈ t.newest, w.stage = .outside)

/-- A step that leaves the newest thread alone. -/
theorem relieved_of_newest (hnewest : t.newest = s.newest) (hearlier : t.earlier = s.earlier) :
    Relieved s t := by
  refine .same (by rw [threads, threads, hnewest, hearlier]) fun w hw => ?_
  rw [hnewest] at hw
  exact ⟨w, hw, rfl, rfl⟩

theorem Relieved.length_le (h : Relieved s t) : s.threads.length ≤ t.threads.length := by
  cases h with
  | same hthreads _ => exact Nat.le_of_eq hthreads.symm
  | new hthreads _ => omega

/-- If the newest thread is one of the later ones, it has looked at its engine
at these moments only.  The owner adds no looks. -/
theorem Relieved.fresh {count : Nat} {moments : List (Studio ι ε)} (h : Relieved s t)
    (hfresh : count ≤ s.threads.length → s.Fresh moments) :
    count ≤ t.threads.length → t.Fresh moments := by
  cases h with
  | same hthreads hnewest =>
    intro hcount w hw
    obtain ⟨v, hv, hsource, hstage⟩ := hnewest w hw
    rw [hsource, hstage]
    exact hfresh (hthreads ▸ hcount) v hv
  | new _ houtside => exact fun _ => fresh_of_outside houtside

/-! ## What the owner does -/

variable [Engine ε]

/-- What the owner promises with each of its steps.  It may promise besides
that the engine behind the screen stays. -/
structure Cares (keeps : Bool) (s t : Studio ι ε) : Prop where
  orderly : s.Orderly → t.Orderly
  relieved : Relieved s t
  layout : t.layout = s.layout
  listening : t.listening = s.listening
  published : t.published = s.published
  heard : t.heard = s.heard
  engine : keeps = true → t.engine = s.engine

theorem Cares.refl (keeps : Bool) (s : Studio ι ε) : Cares keeps s s :=
  ⟨id, relieved_of_newest rfl rfl, rfl, rfl, rfl, rfl, fun _ => rfl⟩

/-- The owner among the threads. -/
def owner (ι ε : Type) [Engine ε] (keeps : Bool) :
    Aspect (Around (ι := ι) (ε := ε)) (Studio ι ε) :=
  .whole Around (Cares keeps) (Cares.refl keeps)

/-- No operation is in progress. -/
def resting (on : Bool) : Reliable (Around (ι := ι) (ε := ε)) where
  holds s := s.on = on ∧ (on = true → s.held = true) ∧
    (on = false → s.quiet = true ∧ s.mailbox.latest = s.layout.plain idleColor)
  stable := by
    intro s t hs hmove
    obtain ⟨hon, hheld, hoff⟩ := hs
    refine ⟨hmove.on.trans hon, fun h => hmove.held.trans (hheld h), fun h => ?_⟩
    obtain ⟨hquiet, hblack⟩ := hoff h
    obtain ⟨hquiet', hmailbox, -, -⟩ := hmove.quiet hquiet
    exact ⟨hquiet', by rw [hmailbox, hmove.layout, hblack]⟩

/-- The screen is taken for off, and its thread is not stopped yet. -/
def stopping : Reliable (Around (ι := ι) (ε := ε)) where
  holds s := s.on = false ∧ s.held = true
  stable := by
    intro s t hs hmove
    exact ⟨hmove.on.trans hs.1, hmove.held.trans hs.2⟩

/-- The screen is taken for off. -/
def released : Reliable (Around (ι := ι) (ε := ε)) where
  holds s := s.on = false
  stable := fun _ _ hs hmove => hmove.on.trans hs

/-- There were at least so many threads. -/
def atLeast (count : Nat) : Reliable (Around (ι := ι) (ε := ε)) where
  holds s := count ≤ s.threads.length
  stable := by
    intro s t hs hmove
    rwa [hmove.threads]

/-- The screen is off and its thread has come to an end. -/
def ended : Reliable (Around (ι := ι) (ε := ε)) where
  holds s := s.on = false ∧ s.quiet = true
  stable := by
    intro s t hs hmove
    exact ⟨hmove.on.trans hs.1, (hmove.quiet hs.2).1⟩

section Steps

variable {f : Loop → Loop} {keeps : Bool}

/-- To tell a task something does not move its thread. -/
theorem cares_onTask (s : Studio ι ε) (hplace : ∀ l, (f l).place = l.place) :
    Cares keeps s (s.onTask f) := by
  have hrelieved : Relieved s (s.onTask f) := by
    refine .same ?_ fun v hv => ?_
    · cases hnewest : s.newest <;> simp [threads, onTask, hnewest]
    · obtain ⟨w, hw, rfl⟩ := Option.map_eq_some_iff.1 hv
      exact ⟨w, hw, rfl, rfl⟩
  refine ⟨fun h => ⟨h.earlier, ?_, h.composed, ?_⟩, hrelieved, rfl, rfl, rfl, rfl, fun _ => rfl⟩
  · intro v hv
    obtain ⟨w, hw, rfl⟩ := Option.map_eq_some_iff.1 hv
    obtain ⟨hlayout, hsource, hticking, hstage⟩ := h.newest w hw
    refine ⟨hlayout, ?_, ?_, hstage⟩
    · rw [hplace]
      exact hsource
    · rw [hplace]
      exact hticking
  · have haccount := h.account
    have howed : (s.onTask f).owed = s.owed := by
      unfold owed onTask
      cases s.newest <;> rfl
    rw [howed]
    exact haccount

/-- When the threads have come to an end, they have nothing in their hands. -/
theorem Orderly.outside_of_quiet (h : s.Orderly) (hquiet : s.quiet = true) :
    ∀ w ∈ s.newest, w.loop.place = .finished ∧ w.stage = .outside := by
  intro w hw
  have hplace : w.loop.place = .finished := by
    have hnewest : s.newest = some w := hw
    simpa [quiet, hnewest] using hquiet
  exact ⟨hplace, (h.newest w hw).outside (by simp [hplace])⟩

/-- Then no thread is left. -/
theorem Orderly.gone_of_quiet (h : s.Orderly) (hquiet : s.quiet = true) :
    ∀ w ∈ s.threads, w.Gone := by
  intro w hw
  rcases List.mem_append.1 hw with hw | hw
  · exact h.outside_of_quiet hquiet w (Option.mem_toList.1 hw)
  · exact h.earlier w hw

theorem Orderly.account_of_quiet (h : s.Orderly) (hquiet : s.quiet = true) : s.Accounts [] := by
  have haccount := h.account
  rwa [owed_eq_nil fun w hw => (h.outside_of_quiet hquiet w hw).2] at haccount

/-- Black is shown when nobody is owed anything. -/
theorem cares_darken (hquiet : s.quiet = true) : Cares keeps s s.darken := by
  refine ⟨fun h => ⟨h.earlier, ?_, h.composed, ?_⟩, relieved_of_newest rfl rfl, rfl, rfl, rfl,
    rfl, fun _ => rfl⟩
  · exact fun w hw => sound_congr (h.newest w hw) rfl rfl
  · have howed : s.darken.owed = [] :=
      owed_eq_nil fun w hw => (h.outside_of_quiet hquiet w hw).2
    rw [howed]
    exact h.account_of_quiet hquiet

/-- A thread is started when the earlier ones have come to an end. -/
theorem cares_spawn (hquiet : s.quiet = true) : Cares keeps s s.spawn := by
  have hrelieved : Relieved s s.spawn := by
    refine .new (length_threads_spawn s) fun w hw => ?_
    obtain rfl := Option.some.inj hw
    rfl
  refine ⟨fun h => ⟨?_, ?_, h.composed, ?_⟩, hrelieved, rfl, rfl, rfl, rfl, fun _ => rfl⟩
  · exact h.gone_of_quiet hquiet
  · intro w hw
    obtain rfl := Option.some.inj hw
    exact ⟨rfl, fun _ => rfl, fun hinside => absurd rfl hinside, trivial⟩
  · exact h.account_of_quiet hquiet

/-- The engine is exchanged when the threads have come to an end. -/
theorem cares_exchange (engine : ι) (hquiet : s.quiet = true) :
    Cares false s { s with engine } := by
  refine ⟨fun h => ⟨h.earlier, fun w hw => ?_, h.composed, h.account⟩, relieved_of_newest rfl rfl,
    rfl, rfl, rfl, rfl, fun hkeeps => by cases hkeeps⟩
  obtain ⟨hlayout, -, hticking, hstage⟩ := h.newest w hw
  have hplace := (h.outside_of_quiet hquiet w hw).1
  exact ⟨hlayout, fun hwork => absurd hplace hwork, hticking, hstage⟩

theorem cares_on (on : Bool) : Cares keeps s { s with on } :=
  ⟨fun h => ⟨h.earlier, fun w hw => sound_congr (h.newest w hw) rfl rfl, h.composed, h.account⟩,
    relieved_of_newest rfl rfl, rfl, rfl, rfl, rfl, fun _ => rfl⟩

end Steps

section Operations

variable (keeps : Bool)

/-- A step of stopping a task that is still held afterwards. -/
theorem onTask_upholds {f : Loop → Loop} (hplace : ∀ l, (f l).place = l.place)
    (hheld : ∀ l, (f l).held = l.held) :
    (owner ι ε keeps).Upholds stopping (change (onTask f)) fun _ => stopping :=
  .once fun s hs _ => ⟨cares_onTask s hplace, hs.1, (held_onTask s hheld).trans hs.2⟩

theorem stop_upholds : (owner ι ε keeps).Upholds stopping stop fun _ => ended := by
  have hplace (place) (l : Loop) : (l.stopStep .owner place).place = l.place :=
    l.place_stopStep .owner place
  unfold stop
  refine .bind (onTask_upholds keeps (fun _ => rfl) fun _ => rfl) fun _ => ?_
  refine .bind (onTask_upholds keeps (hplace _) fun _ => rfl) fun _ => ?_
  refine .bind (onTask_upholds keeps (hplace _) fun _ => rfl) fun _ => ?_
  refine .bind (M := fun held => released.given (held = true)) (.once fun s hs _ => ?_)
    fun held => ?_
  · exact ⟨cares_onTask s (hplace _), hs.2, hs.1⟩
  refine .bind (M := fun _ => ended) ?_ fun _ => .once fun s hs _ => ?_
  · refine .given fun hheld => ?_
    subst hheld
    refine .once fun s hs hready => ⟨cares_onTask s (hplace _), hs, ?_⟩
    exact (quiet_onTask s (hplace _)).trans hready
  · exact ⟨cares_onTask s (hplace _), hs.1, (quiet_onTask s (hplace _)).trans hs.2⟩

/-- Black is shown at the end, and the screen is off. -/
theorem switchOff_upholds (on : Bool) :
    (owner ι ε keeps).Upholds (resting on) switchOff fun _ => resting false := by
  unfold switchOff
  refine .bind (M := fun found => if found then stopping else ended) (.once fun s hs _ => ?_)
    fun found => ?_
  · have hon : s.on = on := hs.1
    refine ⟨cares_on false, ?_⟩
    show (if s.on then stopping else ended).holds { s with on := false }
    rw [hon]
    cases on with
    | false => exact ⟨rfl, (hs.2.2 rfl).1⟩
    | true => exact ⟨rfl, hs.2.1 rfl⟩
  refine .bind (M := fun _ => ended) ?_ fun _ => .once fun s hs _ => ?_
  · cases found with
    | false => exact .pure fun _ => id
    | true => exact stop_upholds keeps
  · exact ⟨cares_darken hs.2, hs.1, by simp, fun _ => ⟨hs.2, rfl⟩⟩

/-- The screen has a thread and is taken for off. -/
def starting : Reliable (Around (ι := ι) (ε := ε)) where
  holds s := s.held = true
  stable := by
    intro s t hs hmove
    exact hmove.held.trans hs

/-- A screen that was off has a thread more. -/
theorem switchOn_spawns (on : Bool) (count : Nat) :
    (owner ι ε keeps).Upholds ((resting on).and (atLeast count)) switchOn fun _ =>
      (resting true).and (atLeast (if on then count else count + 1)) := by
  unfold switchOn
  refine .bind (M := fun found => ((resting on).and (atLeast count)).given (found = on))
    (.look fun s hs => ?_) fun found => .given fun hfound => ?_
  · exact ⟨hs.1.1, hs⟩
  subst hfound
  cases found with
  | true => exact .pure fun _ => id
  | false =>
    refine .bind (M := fun _ => starting.and (atLeast (count + 1))) (.once fun s hs _ => ?_)
      fun _ => .once fun s hs _ => ?_
    · obtain ⟨hrests, hcount⟩ := hs
      refine ⟨cares_spawn (hrests.2.2 rfl).1, rfl, ?_⟩
      show count + 1 ≤ s.spawn.threads.length
      rw [length_threads_spawn]
      exact Nat.succ_le_succ hcount
    · exact ⟨cares_on true, ⟨rfl, fun _ => hs.1, by simp⟩, hs.2⟩

theorem switchOn_upholds (on : Bool) :
    (owner ι ε keeps).Upholds (resting on) switchOn fun _ => resting true :=
  (switchOn_spawns keeps on 0).weaken (fun _ hs => ⟨hs, Nat.zero_le _⟩) fun _ _ hs => hs.1

theorem toggle_upholds (on : Bool) :
    (owner ι ε keeps).Upholds (resting on) toggle fun answer =>
      (resting !on).given (answer = !on) := by
  unfold toggle
  refine .bind (M := fun found => (resting on).given (found = on)) (.look fun s hs => ?_)
    fun found => .given fun hfound => ?_
  · exact ⟨hs.1, hs⟩
  subst hfound
  refine .bind (M := fun _ => resting !found) ?_ fun _ => .look fun s hs => ?_
  · cases found with
    | false => exact switchOn_upholds keeps false
    | true => exact switchOff_upholds keeps true
  · exact ⟨hs.1, hs⟩

/-- An engine is behind the screen. -/
def showing (engine : ι) : Reliable (Around (ι := ι) (ε := ε)) where
  holds s := s.engine = engine
  stable := fun _ _ hs hmove => hmove.engine.trans hs

/-- To switch on does not exchange the engine. -/
theorem switchOn_shows (engine : ι) (count : Nat) :
    (owner ι ε false).Upholds (((resting false).and (atLeast count)).and (showing engine)) switchOn
      fun _ => ((resting true).and (atLeast (count + 1))).and (showing engine) := by
  have hkeeps (s t : Studio ι ε) (hs : s.engine = engine) (hstep : Cares true s t) :
      t.engine = engine := (hstep.engine rfl).trans hs
  have hframe := (switchOn_spawns true false count).frame (F := showing engine) hkeeps
  intro s hs
  refine (hframe s hs).mono (fun s t hstep => ?_) fun _ _ => id
  exact ⟨hstep.orderly, hstep.relieved, hstep.layout, hstep.listening, hstep.published,
    hstep.heard, by simp⟩

/-- If the screen is on, there were more threads than so many. -/
def renewed (count : Nat) : Reliable (Around (ι := ι) (ε := ε)) where
  holds s := s.on = true → count + 1 ≤ s.threads.length
  stable := by
    intro s t hs hmove
    rwa [hmove.on, hmove.threads]

/-- The screen is on or off as before, the new engine is behind it, and a
thread has begun to look at it if the screen is on. -/
theorem exchange_renews (engine : ι) (on : Bool) (count : Nat) :
    (owner ι ε false).Upholds ((resting on).and (atLeast count)) (exchange engine) fun _ =>
      ((resting on).and (renewed count)).and (showing engine) := by
  have hkeeps (s t : Studio ι ε) (hs : count ≤ s.threads.length) (hstep : Cares false s t) :
      count ≤ t.threads.length := Nat.le_trans hs hstep.relieved.length_le
  unfold exchange
  refine .bind (M := fun found => ((resting on).and (atLeast count)).given (found = on))
    (.look fun s hs => ?_) fun found => .given fun hfound => ?_
  · exact ⟨hs.1.1, hs⟩
  subst hfound
  refine .bind ((switchOff_upholds false found).frame (F := atLeast count) hkeeps) fun _ => ?_
  refine .bind (M := fun _ => ((resting false).and (atLeast count)).and (showing engine))
    (.once fun s hs _ => ?_) fun _ => ?_
  · exact ⟨cares_exchange engine (hs.1.2.2 rfl).1, hs, rfl⟩
  · cases found with
    | false =>
      refine .pure fun s hs => ⟨⟨hs.1.1, fun hon => ?_⟩, hs.2⟩
      exact absurd (hs.1.1.1.symm.trans hon) Bool.false_ne_true
    | true => exact (switchOn_shows engine count).weaken (fun _ => id) fun _ s hs =>
        ⟨⟨hs.1.1, fun _ => hs.1.2⟩, hs.2⟩

/-- The screen is on or off as before, and the new engine is behind it. -/
theorem exchange_upholds (engine : ι) (on : Bool) :
    (owner ι ε false).Upholds (resting on) (exchange engine) fun _ =>
      (resting on).and (showing engine) :=
  (exchange_renews engine on 0).weaken (fun _ hs => ⟨hs, Nat.zero_le _⟩)
    fun _ _ hs => ⟨hs.1.1, hs.2⟩

end Operations

end Studio

/-! ## What is asked for -/

namespace Request

/-- Whether the screen is on after a request. -/
def after (wasOn : Bool) : Request ι → Bool
  | .switchOn => true
  | .switchOff => false
  | .toggle => !wasOn
  | .exchange _ => wasOn

/-- What a request does to a display. -/
def perform : Request ι → Display → Display
  | .switchOn => Display.switchOn
  | .switchOff => Display.switchOff
  | .toggle => Display.toggle
  | .exchange _ => Display.restart

theorem isOn_perform (request : Request ι) (d : Display) :
    (request.perform d).isOn = request.after d.isOn := by
  obtain ⟨l, m, worker⟩ := d
  cases request <;> cases worker <;> rfl

/-- The answer of a request. -/
def answer (wasOn : Bool) : Request ι → Option Bool
  | .toggle => some !wasOn
  | _ => none

def isExchange : Request ι → Bool
  | .exchange _ => true
  | _ => false

/-- What holds when a request has been answered. -/
def told (wasOn : Bool) (request : Request ι) (answer : Option Bool) :
    Reliable (Studio.Around (ι := ι) (ε := ε)) :=
  match request with
  | .exchange engine =>
    ((Studio.resting wasOn).and (Studio.showing engine)).given (answer = none)
  | request => (Studio.resting (request.after wasOn)).given (answer = request.answer wasOn)

theorem on_of_told {wasOn : Bool} {request : Request ι} {answer : Option Bool} {s : Studio ι ε}
    (h : (request.told wasOn answer).holds s) :
    (Studio.resting (request.after wasOn)).holds s ∧ answer = request.answer wasOn := by
  cases request with
  | exchange engine => exact ⟨h.2.1, h.1⟩
  | _ => exact ⟨h.2, h.1⟩

theorem resting_of_told {wasOn : Bool} {request : Request ι} {answer : Option Bool}
    {s : Studio ι ε} (h : (request.told wasOn answer).holds s) :
    (Studio.resting s.on).holds s := by
  obtain ⟨hresting, -⟩ := on_of_told h
  rwa [show s.on = request.after wasOn from hresting.1]

theorem script_upholds [Engine ε] (request : Request ι) (on : Bool) :
    (Studio.owner ι ε !request.isExchange).Upholds (Studio.resting on) request.script
      (request.told on) := by
  cases request with
  | switchOn => exact (Studio.switchOn_upholds _ on).bind fun _ => .pure fun _ h => ⟨rfl, h⟩
  | switchOff => exact (Studio.switchOff_upholds _ on).bind fun _ => .pure fun _ h => ⟨rfl, h⟩
  | toggle =>
    refine (Studio.toggle_upholds _ on).bind fun answer => .pure fun _ h => ?_
    exact ⟨congrArg some h.1, h.2⟩
  | exchange engine =>
    exact (Studio.exchange_upholds engine on).bind fun _ => .pure fun _ h => ⟨rfl, h⟩

end Request

end Monitor68.Screen
