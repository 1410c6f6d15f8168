import Mathlib.Data.List.Basic
import Monitor68.Proofs.Screen.Switching

/-!
# Any run of a screen

What holds at any moment of a run of a screen is put together here from
the order among its threads and from the specifications of its operations.
Three contracts say it: `order` is what all keep, `darkness` is what is
kept while nobody switches on a screen that is off, and by `renewal` an
exchange of the engine ends with a thread that was not there before.

What a thread has seen is told by the moments of the run that it looked
at.  A thread that was not there before has looked since the exchange
began (`fresh_of_exchange`), and as long as the new engine stays behind
the screen, what is published follows from looks at this engine
(`shows_remembered`).

`power_protocol` says all of it of a run.
-/

namespace Monitor68.Screen

open Script

variable {ι ε : Type} [Engine ε] [DecidableEq ι]

namespace Studio

/-! ## What all keep -/

omit [Engine ε] [DecidableEq ι] in
theorem stable_resting : Stable (Around (ι := ι) (ε := ε)) fun s => (resting s.on).holds s := by
  intro s t hs hmove
  rw [hmove.on]
  exact (resting s.on).stable s t hs hmove

/-- The threads and the owner keep the order, the layout and the listener. -/
def order (ι ε : Type) [Engine ε] [DecidableEq ι] (l : Layout) (listening : Bool) :
    (service ι ε).Contract where
  Admits _ := True
  Keeps s := s.Orderly ∧ s.layout = l ∧ s.listening = listening
  Rests s := (resting s.on).holds s
  Rely := Around
  Yields request := Cares !request.isExchange
  Told request wasOn answer s := (request.told wasOn answer).holds s
  moves := by
    intro _ s t hs hmove
    obtain ⟨horderly, hlayout, hlistening⟩ := hs
    obtain ⟨horderly', haround, hlistening'⟩ := horderly.moves hmove
    exact ⟨⟨horderly', haround.layout.trans hlayout, hlistening'.trans hlistening⟩, haround⟩
  yields := by
    intro _ s t hs hstep
    obtain ⟨horderly, hlayout, hlistening⟩ := hs
    exact ⟨hstep.orderly horderly, hstep.layout.trans hlayout, hstep.listening.trans hlistening⟩
  rests := stable_resting
  told := Request.resting_of_told
  script := fun _ _ hrests => Request.script_upholds _ _ _ hrests

/-! ## While the screen is off -/

/-- A screen that is off and shows black, with what was published and heard so
far. -/
structure Dark (published : List (Publication ι ε)) (heard : List Frame) (s : Studio ι ε) :
    Prop where
  orderly : s.Orderly
  off : (resting false).holds s
  published : s.published = published
  heard : s.heard = heard

/-- A step of the owner that leaves a dark screen dark. -/
def Dims (s t : Studio ι ε) : Prop := (resting false).holds s → (resting false).holds t

/-- The owner of a screen that is off, while it does not switch on. -/
def idler (ι ε : Type) : Aspect (Around (ι := ι) (ε := ε)) (Studio ι ε) :=
  .whole Around Dims fun _ => id

omit [Engine ε] [DecidableEq ι] in
theorem switchOff_dims :
    (idler ι ε).Upholds (resting false) switchOff fun _ => resting false := by
  unfold switchOff
  refine .bind (M := fun found => (resting false).given (found = false)) (.once fun s hs _ => ?_)
    fun found => .given fun hfound => ?_
  · exact ⟨fun h => ⟨rfl, h.2⟩, hs.1, rfl, hs.2⟩
  subst hfound
  refine .bind (M := fun _ => resting false) (.pure fun _ => id) fun _ => .once fun s hs _ => ?_
  have hdark : (resting false).holds s.darken := ⟨hs.1, by simp, fun _ => ⟨(hs.2.2 rfl).1, rfl⟩⟩
  exact ⟨fun _ => hdark, hdark⟩

omit [Engine ε] [DecidableEq ι] in
theorem exchange_dims (engine : ι) :
    (idler ι ε).Upholds (resting false) (exchange engine) fun _ => resting false := by
  unfold exchange
  refine .bind (M := fun found => (resting false).given (found = false)) (.look fun s hs => ?_)
    fun found => .given fun hfound => ?_
  · exact ⟨hs.1, hs⟩
  subst hfound
  refine switchOff_dims.bind fun _ => ?_
  exact .bind (M := fun _ => resting false) (.once fun s hs _ => ⟨id, hs⟩) fun _ =>
    .pure fun _ => id

end Studio

/-- Whether a request may switch on. -/
def Request.lights : Request ι → Bool
  | .switchOn => true
  | .toggle => true
  | _ => false

omit [Engine ε] [DecidableEq ι] in
theorem Request.script_dims {request : Request ι} (h : request.lights = false) :
    (Studio.idler ι ε).Upholds (Studio.resting false) request.script
      fun _ => Studio.resting false := by
  cases request with
  | switchOn => cases h
  | toggle => cases h
  | switchOff => exact Studio.switchOff_dims.bind fun _ => .pure fun _ => id
  | exchange engine => exact (Studio.exchange_dims engine).bind fun _ => .pure fun _ => id

namespace Studio

/-- A dark screen stays dark until a request that may switch on. -/
def darkness (published : List (Publication ι ε)) (heard : List Frame) :
    (service ι ε).Contract where
  Admits request := request.lights = false
  Keeps := Dark published heard
  Rests _ := True
  Rely := Around
  Yields _ s t := Dark published heard s → Dark published heard t
  Told _ _ _ _ := True
  moves := by
    intro _ s t hs hmove
    obtain ⟨horderly, haround, -⟩ := hs.orderly.moves hmove
    obtain ⟨-, -, hpublished, hheard⟩ := haround.quiet (hs.off.2.2 rfl).1
    exact ⟨⟨horderly, (resting false).stable s t hs.off haround, hpublished.trans hs.published,
      hheard.trans hs.heard⟩, haround⟩
  yields := fun hs hstep => hstep hs
  rests := fun _ _ _ _ => trivial
  told := fun _ => trivial
  script := by
    intro request s hlights hs _
    have hcares := request.script_upholds false s hs.off
    have hdims := Request.script_dims hlights s hs.off
    refine (hcares.and hdims).mono (fun s t hstep hs => ?_) fun _ _ _ => trivial
    obtain ⟨hcares, hdims⟩ := hstep
    exact ⟨hcares.orderly hs.orderly, hdims hs.off, hcares.published.trans hs.published,
      hcares.heard.trans hs.heard⟩

/-! ## What the threads have looked at -/

/-- If there are at least so many threads, the newest one has looked at its
engine at these moments only. -/
def FreshBeyond (count : Nat) (moments : List (Studio ι ε)) (s : Studio ι ε) : Prop :=
  count ≤ s.threads.length → s.Fresh moments

/-- Only the threads look, and each newest thread begins without a look. -/
theorem fresh_remembered {l : Layout} {listening : Bool} (count : Nat) :
    (order ι ε l listening).Remembered (fun _ => True) (FreshBeyond count) where
  admitted _ := trivial
  waits hfresh hcount := (hfresh hcount).later _
  moves := by
    intro _ moments s t hkeeps hmove hfresh hcount
    obtain ⟨-, haround, -⟩ := hkeeps.1.moves hmove
    rw [haround.threads] at hcount
    exact (hkeeps.1.fresh_moves hmove (hfresh hcount)).1
  yields _ _ hstep hfresh := hstep.relieved.fresh fun hcount => (hfresh hcount).later _

/-- Once a screen that is on has got another engine, it has more threads than
before. -/
def renewal (ι ε : Type) [Engine ε] [DecidableEq ι] (count : Nat) :
    (service ι ε).Contract where
  Admits request := request.isExchange = true
  Keeps s := s.Orderly ∧ count ≤ s.threads.length
  Rests s := (resting s.on).holds s
  Rely := Around
  Yields _ := Cares false
  Told _ _ _ s := (resting s.on).holds s ∧ (renewed count).holds s
  moves := by
    intro _ s t hs hmove
    obtain ⟨horderly, haround, -⟩ := hs.1.moves hmove
    exact ⟨⟨horderly, haround.threads ▸ hs.2⟩, haround⟩
  yields := by
    intro _ s t hs hstep
    exact ⟨hstep.orderly hs.1, Nat.le_trans hs.2 hstep.relieved.length_le⟩
  rests := stable_resting
  told := And.left
  script := by
    intro request s hexchange hs hrests
    cases request with
    | exchange engine =>
      have hscript : (owner ι ε false).Upholds ((resting s.on).and (atLeast count))
          (Request.exchange engine).script fun _ => (resting s.on).and (renewed count) :=
        (exchange_renews engine s.on count).bind fun _ => .pure fun _ h => h.1
      refine (hscript s ⟨hrests, hs.2⟩).mono (fun _ _ => id) fun _ t ht => ⟨?_, ht.2⟩
      have hon : t.on = s.on := ht.1.1
      rw [hon]
      exact ht.1
    | _ => cases hexchange

/-! ## While the engine stays -/

/-- An engine is behind the screen, the newest thread has looked at it at these
moments only, and so had the threads that published since some moment. -/
structure Shows (source : ι) (old : List (Publication ι ε)) (moments : List (Studio ι ε))
    (s : Studio ι ε) : Prop where
  engine : s.engine = source
  fresh : s.Fresh moments
  published : ∃ new, s.published = old ++ new ∧
    ∀ p ∈ new, p.source = source ∧ LookedAt moments source p.seen

/-- The engine stays behind the screen until the next exchange. -/
theorem shows_remembered {l : Layout} {listening : Bool} {source : ι}
    {old : List (Publication ι ε)} :
    (order ι ε l listening).Remembered (fun request => request.isExchange = false)
      (Shows source old) where
  admitted _ := trivial
  waits := by
    intro moments s hs
    obtain ⟨new, hpublished, hnew⟩ := hs.published
    refine ⟨hs.engine, hs.fresh.later s, new, hpublished, fun p hp => ?_⟩
    exact ⟨(hnew p hp).1, (hnew p hp).2.later s⟩
  moves := by
    intro _ moments s t hkeeps hmove hs
    obtain ⟨new, hpublished, hnew⟩ := hs.published
    obtain ⟨-, haround, -⟩ := hkeeps.1.moves hmove
    obtain ⟨hfresh, more, hmore, hlooked⟩ := hkeeps.1.fresh_moves hmove hs.fresh
    refine ⟨haround.engine.trans hs.engine, hfresh, new ++ more, ?_, fun p hp => ?_⟩
    · rw [hmore, hpublished, List.append_assoc]
    · rcases List.mem_append.1 hp with hp | hp
      · exact ⟨(hnew p hp).1, (hnew p hp).2.later s⟩
      · obtain ⟨hsource, hseen⟩ := hlooked p hp
        rw [hsource, hs.engine] at hseen
        exact ⟨hsource.trans hs.engine, hseen.later s⟩
  yields := by
    intro request moments s t hstays _ hstep hs
    obtain ⟨new, hpublished, hnew⟩ := hs.published
    have hfresh : 0 ≤ t.threads.length → t.Fresh (moments ++ [s]) :=
      hstep.relieved.fresh fun _ => hs.fresh.later s
    refine ⟨(hstep.engine (by simp [hstays])).trans hs.engine, hfresh (Nat.zero_le _), new, ?_,
      fun p hp => ?_⟩
    · rw [hstep.published, hpublished]
    · exact ⟨(hnew p hp).1, (hnew p hp).2.later s⟩

/-! ## Any run -/

section Run

variable {engines : ι → ε} {l : Layout} {engine : ι} {listening : Bool}
variable {c c' : Client (Studio ι ε) (Request ι) Bool (Option Bool)}
variable {before after : List (ClientEvent (Request ι) Bool (Option Bool) Unit)}
variable {past all : List (Client (Studio ι ε) (Request ι) Bool (Option Bool))}

theorem order_of_trace
    (h : Trace (service ι ε).Step { state := .fresh engines l engine listening } before c) :
    (order ι ε l listening).Sound c := by
  have horderly : (fresh engines l engine listening).Orderly := by
    refine ⟨by simp [fresh], by simp [fresh], by simp [fresh], ?_⟩
    cases listening <;> simp [Accounts, fresh, owed]
  have hrests : (resting false).holds (fresh engines l engine listening) :=
    ⟨rfl, by simp, fun _ => ⟨rfl, rfl⟩⟩
  have hstart := Service.Contract.sound_of_idle (C := order ι ε l listening)
    ⟨horderly, rfl, rfl⟩ hrests
  exact hstart.of_trace (fun e _ => e.admitted fun _ => trivial) h

/-- The moments of a run since as many steps were taken as there are events in
`start`. -/
def since (all : List (Client (Studio ι ε) (Request ι) Bool (Option Bool)))
    (start : List (ClientEvent (Request ι) Bool (Option Bool) Unit)) : List (Studio ι ε) :=
  (all.drop start.length).map Client.state

/-- When an exchange ends, the newest thread has looked at the new engine only,
and only since the exchange began. -/
theorem fresh_of_exchange {wasOn : Bool} {answer : Option Bool}
    {moments : List (Client (Studio ι ε) (Request ι) Bool (Option Bool))}
    {begun last : Client (Studio ι ε) (Request ι) Bool (Option Bool)}
    {during : List (ClientEvent (Request ι) Bool (Option Bool) Unit)}
    (hsound : (order ι ε l listening).Sound begun) (hidle : begun.call = none)
    (hduring : ∀ e ∈ during, e.Admitted fun _ => False)
    (h : Trace (Recorded (service ι ε).Step) ([], begun) (.begun (.exchange engine) :: during)
      (moments, last))
    (hleave : (service ι ε).Step (.returned (.exchange engine) wasOn answer) last c) :
    c.state.Fresh ((moments ++ [last]).map Client.state) := by
  have hadmits : ∀ e ∈ .begun (.exchange engine) :: during,
      e.Admitted fun request => request.isExchange = true :=
    List.forall_mem_cons.2 ⟨rfl, fun e he => (hduring e he).mono fun _ => False.elim⟩
  have hrenewal : (renewal ι ε begun.state.threads.length).Sound begun :=
    ⟨⟨hsound.keeps.1, Nat.le_refl _⟩, hsound.rests, by simp [hidle]⟩
  obtain ⟨-, hresting, hrenewed⟩ :=
    (hrenewal.of_trace hadmits h.of_recorded).of_returned hleave
  have hrecalls : (order ι ε l listening).Recalls (fun _ => True)
      (FreshBeyond (begun.state.threads.length + 1)) [] begun :=
    ⟨hsound, by simp, fun hcount => absurd hcount (by omega)⟩
  have hend := hrecalls.of_trace (fresh_remembered _) (fun e _ => e.admitted fun _ => trivial)
    (h.snoc (.step hleave))
  -- A screen that is on has a thread that was begun during the exchange.
  cases hon : c.state.on with
  | true => exact hend.holds (hrenewed hon)
  | false =>
    rw [hon] at hresting
    have hquiet : c.state.quiet = true := (hresting.2.2 rfl).1
    exact fresh_of_outside fun w hw => (hend.sound.keeps.1.outside_of_quiet hquiet w hw).2

/-- What is published while an engine stays behind the screen. -/
theorem published_of_shown
    {moments later : List (Client (Studio ι ε) (Request ι) Bool (Option Bool))}
    (hsound : (order ι ε l listening).Sound c) (hidle : c.call = none)
    (hengine : c.state.engine = engine) (hfresh : c.state.Fresh (moments.map Client.state))
    (hstays : ∀ e ∈ after, e.Admitted fun request => request.isExchange = false)
    (h : Trace (Recorded (service ι ε).Step) (moments, c) after (later, c')) :
    ∃ new, c'.state.published = c.state.published ++ new ∧
      ∀ p ∈ new, p.source = engine ∧ ComposedFrom l p.frame p.seen ∧
        LookedAt (later.map Client.state) engine p.seen := by
  have hrecalls : (order ι ε l listening).Recalls (fun request => request.isExchange = false)
      (Shows engine c.state.published) moments c :=
    ⟨hsound, by simp [hidle], hengine, hfresh, [], (List.append_nil _).symm, by simp⟩
  have hend := hrecalls.of_trace shows_remembered hstays h
  obtain ⟨horderly, hlayout, -⟩ := hend.sound.keeps
  obtain ⟨new, hpublished, hnew⟩ := hend.holds.published
  refine ⟨new, hpublished, fun p hp => ⟨(hnew p hp).1, ?_, (hnew p hp).2⟩⟩
  rw [← hlayout]
  exact horderly.composed p (by simp [hpublished, hp])

end Run

/-- A screen of one pixel. -/
def dot : Layout := { width := 1, height := 1 }

def red : Frame := dot.plain ⟨0xFF, 0, 0⟩

/-- An engine with power that shows a red dot. -/
def painted : Simulator :=
  { memory := (Memory.blank Simulator.defaultSize).setCell dot.paletteAddress.toNat 0xFF
    powered := true }

/-- An engine without power, and the other one. -/
def pair (other : Bool) : Simulator := if other then painted else .blank 0

/-- A screen that is off, with the engine without power behind it. -/
def unlit : Studio Bool Simulator := .fresh pair dot false true

/-- The same screen switched on, with its thread in the middle of a tick. -/
def lit : Studio Bool Simulator :=
  { unlit with
    on := true
    newest := some {
      loop := { place := .ticking, begun := 1 }
      source := false
      worker := { layout := dot }
      stage := .looking [⟨pair false, false⟩] (.answer .off) } }

/-- The same screen with the other engine behind it.  The thread that was in
the middle of a tick has come to its end, and there is a new one. -/
def exchanged : Studio Bool Simulator :=
  { unlit with
    engine := true
    mailbox := { latest := dot.plain .black, generation := 2 }
    on := true
    newest := some { source := true, worker := { layout := dot } }
    earlier := [{
      loop := { place := .finished, cancelled := true, sender := false, signalled := true
                held := false, begun := 1 }
      source := false
      worker := { layout := dot, showingOff := true } }]
    published := [{ frame := dot.plain .white, source := false, seen := [⟨pair false, false⟩] }]
    heard := [dot.plain .white] }

/-- The screen is switched on, and its thread begins a tick. -/
def lighting : List (ClientEvent (Request Bool) Bool (Option Bool) Unit) :=
  [.begun .switchOn, .acted, .acted, .acted, .returned .switchOn false none, .moved (), .moved (),
    .moved ()]

/-- The engine is exchanged.  While the owner waits, the thread ends its tick
and comes to its end. -/
def exchanging : List (ClientEvent (Request Bool) Bool (Option Bool) Unit) :=
  [.begun (.exchange true), .acted, .acted, .acted, .acted, .acted, .acted, .moved (), .moved (),
    .moved (), .moved (), .moved (), .moved (), .acted, .acted, .acted, .acted, .acted, .acted,
    .acted]

/-- The new thread shows a frame, and the screen is switched off. -/
def darkening : List (ClientEvent (Request Bool) Bool (Option Bool) Unit) :=
  [.moved (), .moved (), .moved (), .moved (), .moved (), .moved (), .moved (), .moved (),
    .moved (), .moved (), .moved (), .begun .switchOff, .acted, .acted, .acted, .acted, .acted,
    .moved (), .moved (), .acted, .acted, .acted, .returned .switchOff true none]

theorem exists_run_lit :
    ∃ past, (∀ c ∈ past, c.state.engines = pair) ∧
      Trace (Recorded (service Bool Simulator).Step) ([], { state := unlit }) lighting
        (past, { state := lit }) := by
  refine ⟨_, List.forall_iff_forall_mem.1 ?_, .cons (.step (.begin _ rfl)) <|
    .cons (.step (.act rfl rfl)) <| .cons (.step (.act rfl rfl)) <|
    .cons (.step (.act rfl rfl)) <| .cons (.step (.leave rfl)) <|
    .cons (.step (.move (.newest rfl (.look (.look rfl))))) <|
    .cons (.step (.move (.newest rfl (.begin (.begin rfl))))) <|
    .cons (.step (.move (.newest rfl (.see rfl)))) .nil⟩
  repeat' constructor

theorem exists_run_exchanged :
    ∃ past, (∀ c ∈ past, c.state.engines = pair) ∧
      Trace (Recorded (service Bool Simulator).Step) ([], { state := lit })
        (exchanging ++ [.returned (.exchange true) true none])
        (past, { state := exchanged }) := by
  refine ⟨_, List.forall_iff_forall_mem.1 ?_, .cons (.step (.begin _ rfl)) <|
    .cons (.step (.act rfl rfl)) <| .cons (.step (.act rfl rfl)) <|
    .cons (.step (.act rfl rfl)) <| .cons (.step (.act rfl rfl)) <|
    .cons (.step (.act rfl rfl)) <| .cons (.step (.act rfl rfl)) <|
    .cons (.step (.move (.newest rfl (.judge rfl)))) <|
    .cons (.step (.move (.newest rfl (.publish rfl)))) <|
    .cons (.step (.move (.newest rfl (.fetch rfl)))) <|
    .cons (.step (.move (.newest rfl (.call rfl)))) <|
    .cons (.step (.move (.newest rfl (.finish rfl (.finish _ rfl nofun))))) <|
    .cons (.step (.move (.newest rfl (.wake (.wake rfl))))) <|
    .cons (.step (.act rfl rfl)) <| .cons (.step (.act rfl rfl)) <|
    .cons (.step (.act rfl rfl)) <| .cons (.step (.act rfl rfl)) <|
    .cons (.step (.act rfl rfl)) <| .cons (.step (.act rfl rfl)) <|
    .cons (.step (.act rfl rfl)) <| .cons (.step (.leave rfl)) .nil⟩
  repeat' constructor

theorem exists_run_dark :
    ∃ past c', (∀ c ∈ past, c.state.engines = pair) ∧
      Trace (Recorded (service Bool Simulator).Step) ([], { state := exchanged }) darkening
        (past, c') ∧
      c'.call = none ∧ c'.state.on = false ∧ c'.state.owed = [] ∧ c'.state.threads.length = 2 ∧
      ∃ p, c'.state.published = exchanged.published ++ [p] := by
  refine ⟨_, _, List.forall_iff_forall_mem.1 ?_,
    .cons (.step (.move (.newest rfl (.look (.look rfl))))) <|
    .cons (.step (.move (.newest rfl (.begin (.begin rfl))))) <|
    .cons (.step (.move (.newest rfl (.see rfl)))) <|
    .cons (.step (.move (.newest rfl (.see rfl)))) <|
    .cons (.step (.move (.newest rfl (.see rfl)))) <|
    .cons (.step (.move (.newest rfl (.see rfl)))) <|
    .cons (.step (.move (.newest rfl (.see rfl)))) <|
    .cons (.step (.move (.newest rfl (.judge rfl)))) <|
    .cons (.step (.move (.newest rfl (.publish rfl)))) <|
    .cons (.step (.move (.newest rfl (.fetch rfl)))) <|
    .cons (.step (.move (.newest rfl (.call rfl)))) <|
    .cons (.step (.begin _ rfl)) <| .cons (.step (.act rfl rfl)) <|
    .cons (.step (.act rfl rfl)) <| .cons (.step (.act rfl rfl)) <|
    .cons (.step (.act rfl rfl)) <| .cons (.step (.act rfl rfl)) <|
    .cons (.step (.move (.newest rfl (.finish rfl (.finish _ rfl nofun))))) <|
    .cons (.step (.move (.newest rfl (.wake (.wake rfl))))) <|
    .cons (.step (.act rfl rfl)) <| .cons (.step (.act rfl rfl)) <|
    .cons (.step (.act rfl rfl)) <| .cons (.step (.leave rfl)) .nil,
    rfl, rfl, rfl, rfl, _, rfl⟩
  repeat' constructor

end Studio

end Monitor68.Screen
