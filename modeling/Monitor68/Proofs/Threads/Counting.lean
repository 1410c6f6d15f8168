import Monitor68.Proofs.Threads.Bench

/-!
# Counting instructions on the bench

The commander of a simulator promises with each of its steps to keep the
order on the bench, and each request leaves alone what it is not about
(`Cares`): only a reset places the registers, only a run starts a thread,
and only a single step counts an instruction.

The specifications say in which state of the bench a request begins and in
which it ends, whatever the threads do meanwhile.  They make the contract
`order`, under which each of the properties that are asked for here is
kept by the threads and by some of the requests.  `execution_protocol`
says what that amounts to in any run.
-/

namespace Monitor68.Simulator.Bench

open Script

/-! ## What the commander does -/

namespace Request

/-- Whether a request places the registers. -/
def resets : Request → Bool
  | .reset _ _ => true
  | _ => false

/-- Whether a request may start a thread. -/
def starts : Request → Bool
  | .run => true
  | _ => false

/-- Whether a request executes an instruction itself. -/
def executes : Request → Bool
  | .stepOne => true
  | _ => false

end Request

/-- What the commander promises with each step of a request. -/
structure Cares (request : Request) (b b' : Bench) : Prop where
  orderly : b.Orderly → b'.Orderly
  placed : request.resets = false →
    b'.cells.placed = b.cells.placed ∧ b'.cells.since = b.cells.since
  quiet : request.starts = false → b'.quiet = b.quiet
  steps : request.executes = false → b'.cells.engine.steps = b.cells.engine.steps
  registers : request.executes = false →
    b'.cells.engine.registers = b.cells.engine.registers ∨
      ∃ entry stack, request = .reset entry stack ∧
        b'.cells.engine.registers = .atEntry entry stack

variable {request : Request} {b : Bench}

/-- A step of an instruction. -/
theorem cares_of_steps {c : Cells} (h : Cells.Steps .commander b.cells c)
    (hkeeps : request.executes = false →
      c.engine.steps = b.cells.engine.steps ∧ c.engine.registers = b.cells.engine.registers) :
    Cares request b { b with cells := c } where
  orderly hb :=
    have hrunner : Cells.Beside .runner b.cells c := h.beside .runner (by simp)
    ⟨hrunner.near hb.near, hb.earlier, hb.newest.beside hrunner⟩
  placed _ := ⟨h.placed, h.since⟩
  quiet _ := rfl
  steps hother := (hkeeps hother).1
  registers hother := .inl (hkeeps hother).2

/-- To hold on to a thread, or not, is the commander's own affair. -/
theorem cares_held (held : Bool) : Cares request b { b with held } where
  orderly hb := ⟨hb.near, hb.earlier, hb.newest⟩
  placed _ := ⟨rfl, rfl⟩
  quiet _ := rfl
  steps _ := rfl
  registers _ := .inl rfl

theorem Cares.refl (request : Request) (b : Bench) : Cares request b b := cares_held b.held

theorem newest_of_quiet (h : b.quiet = true) : b.newest = .finished := by
  unfold quiet at h
  cases hnewest : b.newest with
  | finished => rfl
  | _ => simp [hnewest, Runner.isFinished] at h

/-- A thread is started when the earlier ones have come to an end. -/
theorem cares_spawn (hquiet : b.quiet = true) : Cares .run b b.spawn where
  orderly hb := by
    have hnewest : b.newest = .finished := newest_of_quiet hquiet
    have hsound : b.newest.Sound b.cells := hb.newest
    rw [hnewest] at hsound
    exact ⟨hb.near, fun w hw => (List.mem_cons.1 hw).elim (·.trans hnewest) (hb.earlier w), hsound⟩
  placed _ := ⟨rfl, rfl⟩
  quiet hother := by cases hother
  steps _ := rfl
  registers _ := .inl rfl

/-- The registers are placed with the lock held. -/
theorem cares_place {entry stack : UInt32} (hlock : b.cells.lock = some .commander) :
    Cares (.reset entry stack) b (b.place (.atEntry entry stack)) where
  orderly hb := by
    have hnear : (b.place (.atEntry entry stack)).cells.Near := by
      refine .inl ⟨Nat.le_refl _, ?_⟩
      simp [place]
    have hrunner : Cells.Beside .runner b.cells (b.place (.atEntry entry stack)).cells :=
      .of_mine (by simp) hlock hnear (by simp [place, hlock])
    exact ⟨hnear, hb.earlier, hb.newest.beside hrunner⟩
  placed hother := by cases hother
  quiet _ := rfl
  steps _ := rfl
  registers _ := .inr ⟨entry, stack, rfl, rfl⟩

/-- The commander of a simulator among its threads. -/
def commander (request : Request) : Aspect Around Bench :=
  .whole Around (Cares request) (Cares.refl request)

/-- The commander does not have the lock. -/
def free : Reliable Around where
  holds b := (Cells.without .commander).holds b.cells
  stable := fun _ _ hb hmove => (Cells.without .commander).stable _ _ hb hmove.beside

/-- No request is in progress. -/
def resting : Reliable Around where
  holds b := free.holds b ∧ (b.held = false → b.quiet = true)
  stable := by
    intro b b' hb hmove
    refine ⟨free.stable b b' hb.1 hmove, fun h => ?_⟩
    exact (hmove.quiet (hb.2 (hmove.held ▸ h))).1

/-- All threads have come to an end. -/
def alone : Reliable Around where
  holds b := free.holds b ∧ b.quiet = true
  stable := fun b b' hb hmove => ⟨free.stable b b' hb.1 hmove, (hmove.quiet hb.2).1⟩

/-- The registers are as they were placed, and nothing has been counted
since. -/
def fresh (registers : Registers) : Reliable Around where
  holds b := b.quiet = true ∧ b.cells.engine.registers = registers ∧
    b.cells.placed = registers ∧ b.cells.since = b.cells.engine.steps
  stable := by
    intro b b' hb hmove
    obtain ⟨hquiet, hregisters, hplaced, hsince⟩ := hb
    obtain ⟨hquiet', hregisters', hsteps⟩ := hmove.quiet hquiet
    refine ⟨hquiet', hregisters'.trans hregisters, hmove.placed.trans hplaced, ?_⟩
    rw [hmove.since, hsteps, hsince]

/-- The commander has the lock. -/
def locked : Reliable Around where
  holds b := (Cells.holding .commander 0 none).holds b.cells ∧ b.quiet = true
  stable := by
    intro b b' hb hmove
    exact ⟨(Cells.holding .commander 0 none).stable _ _ hb.1 hmove.beside, (hmove.quiet hb.2).1⟩

/-! ## Specifications -/

/-- A step of the commander that touches neither the threads nor the lock and
what it covers, so that the world could have taken it as well. -/
theorem unseen_upholds {α : Type} (P : Reliable Around) {ready : Bench → Bool}
    {f : Bench → α × Bench} (h : ∀ b, ∃ e : Simulator,
      (f b).2 = { b with cells := { b.cells with engine := e } } ∧
      e.registers = b.cells.engine.registers ∧ e.steps = b.cells.engine.steps) :
    (commander request).Upholds P (once ready f) fun _ => P := by
  refine .once fun b hb _ => ?_
  obtain ⟨e, hf, hregisters, hsteps⟩ := h b
  have haround : Around b { b with cells := { b.cells with engine := e } } :=
    ⟨.of_eq rfl hregisters hsteps rfl rfl, rfl, rfl, rfl, fun h => ⟨h, hregisters, hsteps⟩⟩
  rw [hf]
  exact ⟨cares_of_steps (.of_eq rfl hregisters hsteps rfl rfl) fun _ => ⟨hsteps, hregisters⟩,
    P.stable _ _ hb haround⟩

theorem join_upholds : (commander request).Upholds resting join fun _ => alone := by
  unfold join
  -- Only a thread that is held may still be at work, so nothing is waited for without one.
  refine .bind (M := fun held => if held then free else alone) (.once fun b hb _ => ?_)
    fun held => ?_
  · refine ⟨cares_held false, ?_⟩
    show (if b.held then free else alone).holds { b with held := false }
    cases hheld : b.held with
    | false => exact ⟨hb.1, hb.2 hheld⟩
    | true => exact hb.1
  · cases held with
    | false => exact .pure fun _ => id
    | true => exact .once fun b hb hready => ⟨.refl _ b, hb, hready⟩

theorem stepOne_upholds :
    (commander .stepOne).Upholds resting Bench.stepOne fun _ => resting := by
  have hcells : (commander .stepOne).Upholds resting (onCells (Cells.step .commander))
      fun _ => resting := by
    intro b hb
    have hstable : Stable Around fun b => b.held = false → b.quiet = true :=
      fun b b' hb hmove hheld => (hmove.quiet (hb (hmove.held ▸ hheld))).1
    have hget : ∀ (cells : Cells) (b : Bench), ({ b with cells } : Bench).cells = cells :=
      fun _ _ => rfl
    have hwithin := Ensures.within hget (fun _ _ hmove => .single hmove.beside)
      hstable (fun _ _ => id) (Cells.step_upholds b.cells hb.1) hb.2
    refine hwithin.mono (fun b b' hstep => ?_) fun _ b hb => ⟨hb.2, hb.1⟩
    obtain ⟨-, hsteps, hb'⟩ := hstep
    show Cares .stepOne b b'
    rw [hb']
    exact cares_of_steps hsteps (by simp [Request.executes])
  exact hcells.bind fun _ => .pure fun _ => id

theorem run_upholds : (commander .run).Upholds resting Bench.run fun _ => resting := by
  unfold Bench.run
  refine .bind (M := fun _ => resting) (.look fun _ => id) fun powered => ?_
  cases powered with
  | false => exact .pure fun _ => id
  | true =>
    rw [if_pos rfl]
    refine .bind (M := fun _ => resting) (.look fun _ => id) fun running => ?_
    cases running with
    | true => exact .pure fun _ => id
    | false =>
      rw [if_neg (by simp)]
      refine join_upholds.bind fun _ => ?_
      refine .bind (unseen_upholds alone fun _ => ⟨_, rfl, rfl, rfl⟩) fun _ => ?_
      refine .bind (M := fun _ => free) (.once fun b hb _ => ⟨cares_spawn hb.2, hb.1⟩) fun _ => ?_
      refine .bind (M := fun _ => resting) (.once fun b hb _ => ?_) fun _ => .pure fun _ => id
      exact ⟨cares_held true, hb, fun hheld => by cases hheld⟩

/-- What holds when a shutdown has been answered. -/
def stopped : Except EngineError Unit → Reliable Around
  | .ok _ => alone
  | .error _ => resting

theorem shutdown_upholds :
    (commander .shutdown).Upholds resting Bench.shutdown stopped := by
  unfold Bench.shutdown
  refine .bind (unseen_upholds resting fun _ => ⟨_, rfl, rfl, rfl⟩) fun powered => ?_
  cases powered with
  | false => exact .pure fun _ => id
  | true =>
    refine .bind (unseen_upholds resting fun _ => ⟨_, rfl, rfl, rfl⟩) fun _ => ?_
    exact join_upholds.bind fun _ => .pure fun _ => id

theorem reset_upholds (entry stack : UInt32) :
    (commander (.reset entry stack)).Upholds resting (Bench.reset entry stack) fun answer =>
      (free.and (fresh (.atEntry entry stack))).given (answer = .ok ()) := by
  let placed := fresh (.atEntry entry stack)
  unfold Bench.reset
  refine .bind (unseen_upholds resting fun _ => ⟨_, rfl, rfl, rfl⟩) fun _ => ?_
  refine join_upholds.bind fun _ => ?_
  -- What an instruction promises is not enough here, since a reset counts none: the two steps
  -- of the lock are taken one by one.
  rw [onCells, Cells.acquire, within_once]
  refine .bind (M := fun _ => locked) (.once fun b hb hready => ?_) fun _ => ?_
  · obtain ⟨⟨hnear, -⟩, hquiet⟩ := hb
    obtain ⟨hsteps, hlocked⟩ := Cells.steps_acquire hnear (of_decide_eq_true hready)
    exact ⟨cares_of_steps hsteps fun _ => ⟨rfl, rfl⟩, hlocked, hquiet⟩
  refine .bind (M := fun _ => locked.and placed) (.once fun b hb _ => ?_) fun _ => ?_
  · obtain ⟨⟨hlock, -⟩, hquiet⟩ := hb
    have hahead : (b.place (.atEntry entry stack)).cells.Ahead 0 := ⟨Nat.le_refl _, by simp [place]⟩
    exact ⟨cares_place hlock, ⟨⟨hlock, hahead, by simp⟩, hquiet⟩, hquiet, rfl, rfl, rfl⟩
  rw [onCells, change, atomically, within_once]
  refine .bind (M := fun _ => free.and placed) (.once fun b hb _ => ?_) fun _ => ?_
  · obtain ⟨⟨hlocked, -⟩, hplaced⟩ := hb
    obtain ⟨hsteps, hfree⟩ := Cells.steps_release hlocked
    exact ⟨cares_of_steps hsteps fun _ => ⟨rfl, rfl⟩, hfree, hplaced⟩
  refine .bind (unseen_upholds (free.and placed) fun _ => ⟨_, rfl, rfl, rfl⟩) fun _ => ?_
  refine .bind (unseen_upholds (free.and placed) fun _ => ⟨_, rfl, rfl, rfl⟩) fun _ => ?_
  exact .pure fun _ h => ⟨rfl, h⟩

/-- What holds when a request has been answered. -/
def Request.told (request : Request) (answer : Except EngineError Unit) : Reliable Around :=
  match request with
  | .reset entry stack => (free.and (fresh (.atEntry entry stack))).given (answer = .ok ())
  | .shutdown => stopped answer
  | _ => resting

theorem Request.script_upholds (request : Request) :
    (commander request).Upholds resting request.script request.told := by
  cases request with
  | stepOne => exact stepOne_upholds
  | run => exact run_upholds
  | reset entry stack => exact reset_upholds entry stack
  | shutdown => exact shutdown_upholds

/-- Whether a request leaves no thread behind. -/
def Request.stops (answer : Except EngineError Unit) : Request → Bool
  | .reset _ _ => true
  | .shutdown => answer.isOk
  | _ => false

theorem alone_of_told {answer : Except EngineError Unit} (h : (request.told answer).holds b)
    (hstops : request.stops answer = true) : alone.holds b := by
  cases request with
  | stepOne => cases hstops
  | run => cases hstops
  | reset entry stack => exact ⟨h.2.1, h.2.2.1⟩
  | shutdown =>
    cases answer with
    | ok _ => exact h
    | error _ => cases hstops

theorem resting_of_told {answer : Except EngineError Unit} (h : (request.told answer).holds b) :
    resting.holds b := by
  cases request with
  | stepOne => exact h
  | run => exact h
  | reset entry stack => exact ⟨h.2.1, fun _ => h.2.2.1⟩
  | shutdown =>
    cases answer with
    | ok _ => exact ⟨h.1, fun _ => h.2⟩
    | error _ => exact h

/-! ## Contracts -/

/-- The threads and the commander keep the order. -/
def order : service.Contract where
  Admits _ := True
  Keeps := Orderly
  Rests := resting.holds
  Rely := Around
  Yields := Cares
  Told request _ answer b := (request.told answer).holds b
  moves := by
    intro _ b b' hb hmove
    obtain ⟨horderly, haround, -⟩ := hb.moves hmove
    exact ⟨horderly, haround⟩
  yields := fun hb hstep => hstep.orderly hb
  rests := resting.stable
  told := resting_of_told
  script := fun _ _ hrests => Request.script_upholds _ _ hrests

/-- What the commander may count on, the threads keep. -/
theorem order_kept {admits : Request → Prop} (P : Reliable Around)
    (h : ∀ {request b b'}, admits request → Cares request b b' → P.holds b → P.holds b') :
    order.Kept admits P.holds where
  admitted _ := trivial
  moves hb hmove hP := P.stable _ _ hP (Orderly.moves hb hmove).2.1
  yields hadmits _ hstep hP := h hadmits hstep hP

/-- All threads have come to an end. -/
def quietly : Reliable Around where
  holds b := b.quiet = true
  stable := fun _ _ hb hmove => (hmove.quiet hb).1

theorem quietly_kept : order.Kept (fun request => request.starts = false) quietly.holds :=
  order_kept quietly fun hstarts hstep hb => (hstep.quiet hstarts).trans hb

/-- When the registers were placed, and as what. -/
def placedAs (registers : Registers) (since : Nat) : Reliable Around where
  holds b := b.cells.placed = registers ∧ b.cells.since = since
  stable := fun _ _ hb hmove => ⟨hmove.placed.trans hb.1, hmove.since.trans hb.2⟩

theorem placedAs_kept {registers : Registers} {since : Nat} :
    order.Kept (fun request => request.resets = false) (placedAs registers since).holds := by
  refine order_kept _ fun hresets hstep hb => ?_
  obtain ⟨hplaced, hsince⟩ := hstep.placed hresets
  exact ⟨hplaced.trans hb.1, hsince.trans hb.2⟩

/-- Nothing is executed.  The registers are what they were, or a reset that was
asked for has placed them. -/
def still (asked : Request → Prop) (registers : Registers) (steps : Nat) : Reliable Around where
  holds b := b.quiet = true ∧ b.cells.engine.steps = steps ∧
    (b.cells.engine.registers = registers ∨ ∃ entry stack, asked (.reset entry stack) ∧
      b.cells.engine.registers = .atEntry entry stack)
  stable := by
    intro b b' hb hmove
    obtain ⟨hquiet, hsteps, hregisters⟩ := hb
    obtain ⟨hquiet', hregisters', hsteps'⟩ := hmove.quiet hquiet
    rw [hregisters', hsteps']
    exact ⟨hquiet', hsteps, hregisters⟩

theorem still_kept {asked : Request → Prop} {registers : Registers} {steps : Nat} :
    order.Kept
      (fun request => asked request ∧ request.starts = false ∧ request.executes = false)
      (still asked registers steps).holds := by
  refine order_kept _ fun hadmits hstep hb => ?_
  obtain ⟨hasked, hstarts, hexecutes⟩ := hadmits
  obtain ⟨hquiet, hsteps, hregisters⟩ := hb
  refine ⟨(hstep.quiet hstarts).trans hquiet, (hstep.steps hexecutes).trans hsteps, ?_⟩
  rcases hstep.registers hexecutes with hsame | ⟨entry, stack, rfl, hplaced⟩
  · rwa [hsame]
  · exact .inr ⟨entry, stack, hasked, hplaced⟩

/-! ## Any run -/

theorem of_orderly (s : Simulator) : (of s).Orderly :=
  ⟨.inl ⟨Nat.le_refl _, by simp [of, Cells.of]⟩, by simp [of], by simp [of, Cells.of, Runner.Sound]⟩

theorem Orderly.finished_of_quiet (h : b.Orderly) (hquiet : b.quiet = true) :
    ∀ w ∈ b.threads, w = .finished := by
  intro w hw
  rcases List.mem_cons.1 hw with rfl | hw
  · exact newest_of_quiet hquiet
  · exact h.earlier w hw

theorem Orderly.countP_inLoop (h : b.Orderly) : b.threads.countP Runner.inLoop ≤ 1 := by
  have hearlier : b.earlier.countP Runner.inLoop = 0 := by
    refine List.countP_eq_zero.2 fun w hw => ?_
    simp [h.earlier w hw, Runner.inLoop]
  rw [threads, List.countP_cons, hearlier]
  split <;> omega

/-- When all threads have come to an end, nobody has the lock. -/
theorem Orderly.lock_of_alone (h : b.Orderly) (halone : alone.holds b) : b.cells.lock = none := by
  have hrunner : b.cells.lock ≠ some .runner := by
    have hsound : b.newest.Sound b.cells := h.newest
    rwa [newest_of_quiet halone.2] at hsound
  have hcommander : b.cells.lock ≠ some .commander := halone.1.2
  cases hlock : b.cells.lock with
  | none => rfl
  | some who =>
    cases who with
    | commander => exact absurd hlock hcommander
    | runner => exact absurd hlock hrunner

section Run

variable {s : Simulator} {c c' : Client Bench Request Unit (Except EngineError Unit)}
variable {before after : List (ClientEvent Request Unit (Except EngineError Unit) Mover)}

theorem order_of_trace (h : Trace service.Step { state := .of s } before c) : order.Sound c := by
  have hstart : order.Sound { state := .of s } :=
    Service.Contract.sound_of_idle (of_orderly s)
      ⟨⟨(of_orderly s).near, by simp [of, Cells.of]⟩, fun _ => rfl⟩
  exact hstart.of_trace (fun e _ => e.admitted fun _ => trivial) h

/-- What has just been answered holds. -/
theorem told_of_trace {request : Request} {answer : Except EngineError Unit}
    (h : Trace service.Step { state := .of s } (before ++ [.returned request () answer]) c) :
    c.call = none ∧ (request.told answer).holds c.state := by
  obtain ⟨c₀, hfront, hstep⟩ := h.exists_last
  exact (order_of_trace hfront).of_returned hstep

/-- Until the next reset the instructions are counted from the same registers. -/
theorem counted_of_trace {registers : Registers} {since : Nat} (hc : order.Sound c)
    (hidle : c.call = none) (hstart : (placedAs registers since).holds c.state)
    (hadmitted : ∀ e ∈ after, e.Admitted fun request => request.resets = false)
    (hafter : Trace service.Step c after c') : c'.state.cells.Counted registers since := by
  obtain ⟨horderly, hplaced, hsince⟩ :=
    placedAs_kept.of_trace hc hidle hstart hadmitted hafter
  rw [← hplaced, ← hsince]
  exact horderly.near.counted

/-- Where nothing is executed the registers stay, unless a reset places them. -/
theorem still_of_trace (hc : order.Sound c) (hidle : c.call = none)
    (hquiet : c.state.quiet = true)
    (hadmitted : ∀ e ∈ after, e.Admitted fun request =>
      request.starts = false ∧ request.executes = false)
    (hafter : Trace service.Step c after c') :
    c'.state.cells.engine.steps = c.state.cells.engine.steps ∧
      (c'.state.cells.engine.registers = c.state.cells.engine.registers ∨
        ∃ entry stack, .begun (.reset entry stack) ∈ after ∧
          c'.state.cells.engine.registers = .atEntry entry stack) := by
  let asked (request : Request) : Prop := .begun request ∈ after
  have hasked : ∀ e ∈ after, e.Admitted fun request =>
      asked request ∧ request.starts = false ∧ request.executes = false := by
    intro e he
    have hadmits := hadmitted e he
    cases e with
    | begun request => exact ⟨he, hadmits⟩
    | _ => trivial
  obtain ⟨-, -, hsteps, hregisters⟩ :=
    still_kept.of_trace hc hidle ⟨hquiet, rfl, .inl rfl⟩ hasked hafter
  exact ⟨hsteps, hregisters⟩

/-- No thread moves until the next one is started. -/
theorem not_moved (hc : order.Sound c) (hidle : c.call = none) (hquiet : c.state.quiet = true)
    (hadmitted : ∀ e ∈ after, e.Admitted fun request => request.starts = false)
    (hafter : Trace service.Step c after c') : .moved .runner ∉ after := by
  intro hmoved
  obtain ⟨front, back, u, v, rfl, hfront, hstep, -⟩ := hafter.exists_around hmoved
  have hadmitted' : ∀ e ∈ front, e.Admitted fun request : Request => request.starts = false :=
    fun e he => hadmitted e (List.mem_append_left _ he)
  obtain ⟨horderly, hquiet'⟩ := quietly_kept.of_trace hc hidle hquiet hadmitted' hfront
  cases hstep with
  | move hmove =>
    obtain ⟨-, -, hwork⟩ := horderly.moves hmove
    simp [show u.state.quiet = true from hquiet'] at hwork

/-- What holds at any moment of a run on the bench, and what comes behind it.

At most one thread is in its loop.  The program counter has moved on by two
for every instruction counted since the registers were placed: up to the
first reset they are those the simulator was made with, and after a reset
those it asked for.  When a reset or a successful shutdown has been
answered, all threads have come to an end and nobody has the lock; until the
next run no thread takes a step, and as long as the commander does not
execute an instruction itself, the registers stay as they are or as a later
reset places them. -/
theorem execution_protocol
    (hbefore : Trace service.Step { state := .of s } before c)
    (hafter : Trace service.Step c after c') :
    (∀ w ∈ c.state.earlier, w = .finished) ∧ c.state.threads.countP Runner.inLoop ≤ 1 ∧
    c.state.cells.Counted c.state.cells.placed c.state.cells.since ∧
    ((∀ e ∈ before, e.Admitted fun request => request.resets = false) →
      c.state.cells.Counted s.registers s.steps) ∧
    (∀ front entry stack answer, before = front ++ [.returned (.reset entry stack) () answer] →
      answer = .ok () ∧ c.state.cells.engine.registers = .atEntry entry stack ∧
      ((∀ e ∈ after, e.Admitted fun request => request.resets = false) →
        c'.state.cells.Counted (.atEntry entry stack) c.state.cells.engine.steps)) ∧
    (∀ front request answer, before = front ++ [.returned request () answer] →
      request.stops answer = true →
      (∀ w ∈ c.state.threads, w = .finished) ∧ c.state.cells.lock = none ∧
      ((∀ e ∈ after, e.Admitted fun request => request.starts = false) →
        .moved .runner ∉ after) ∧
      ((∀ e ∈ after, e.Admitted fun request =>
          request.starts = false ∧ request.executes = false) →
        c'.state.cells.engine.steps = c.state.cells.engine.steps ∧
        (c'.state.cells.engine.registers = c.state.cells.engine.registers ∨
          ∃ entry stack, .begun (.reset entry stack) ∈ after ∧
            c'.state.cells.engine.registers = .atEntry entry stack))) := by
  have hsound : order.Sound c := order_of_trace hbefore
  have horderly : c.state.Orderly := hsound.keeps
  refine ⟨horderly.earlier, horderly.countP_inLoop, horderly.near.counted, ?_, ?_, ?_⟩
  · intro hadmitted
    exact counted_of_trace (order_of_trace .nil) rfl ⟨rfl, rfl⟩ hadmitted hbefore
  · intro front entry stack answer hlast
    subst hlast
    obtain ⟨hidle, hanswer, -, -, hregisters, hplaced, hsince⟩ := told_of_trace hbefore
    exact ⟨hanswer, hregisters, fun hadmitted =>
      counted_of_trace hsound hidle ⟨hplaced, hsince⟩ hadmitted hafter⟩
  · intro front request answer hlast hstops
    subst hlast
    obtain ⟨hidle, htold⟩ := told_of_trace hbefore
    have halone : alone.holds c.state := alone_of_told htold hstops
    exact ⟨horderly.finished_of_quiet halone.2, horderly.lock_of_alone halone,
      fun hadmitted => not_moved hsound hidle halone.2 hadmitted hafter,
      fun hadmitted => still_of_trace hsound hidle halone.2 hadmitted hafter⟩

end Run

/-- A simulator that has been reset to address four. -/
def started : Bench where
  cells := {
    engine := (blank 16).reset 4 8
    placed := .atEntry 4 8
    since := 0 }

/-- Its thread has executed an instruction, and so has the commander. -/
def twice : Bench where
  cells := { started.cells with
    engine := { started.cells.engine with
      registers := { Registers.atEntry 4 8 with pc := 8 }
      running := true
      steps := 2 } }
  newest := .stepping (.done (.ok 8))
  earlier := [.finished]
  held := true

/-- The thread has looked at the power and at the size of the memory when the
commander executes an instruction. -/
theorem step_beside_run :
    Trace service.Step { state := .of (blank 16) } [.begun (.reset 4 8), .acted, .acted, .acted,
      .acted, .acted, .acted, .acted, .returned (.reset 4 8) () (.ok ())] { state := started } ∧
    Trace service.Step { state := started } [.begun .run, .acted, .acted, .acted, .acted, .acted,
      .acted, .returned .run () (.ok ()), .moved .runner, .moved .runner, .moved .runner,
      .begun .stepOne, .acted, .acted, .acted, .acted, .acted, .acted, .acted,
      .returned .stepOne () (.ok ()), .moved .runner, .moved .runner, .moved .runner,
      .moved .runner, .moved .runner] { state := twice } ∧
    twice.cells.engine.registers = (Registers.atEntry 4 8).advanced 2 := by
  have hbefore : Trace service.Step { state := .of (blank 16) } [.begun (.reset 4 8), .acted,
      .acted, .acted, .acted, .acted, .acted, .acted, .returned (.reset 4 8) () (.ok ())]
      { state := started } :=
    .cons (.begin _ rfl) <| .cons (.act rfl rfl) <| .cons (.act rfl rfl) <|
      .cons (.act rfl rfl) <| .cons (.act rfl rfl) <| .cons (.act rfl rfl) <|
      .cons (.act rfl rfl) <| .cons (.act rfl rfl) <| .cons (.leave rfl) .nil
  have hafter : Trace service.Step { state := started } [.begun .run, .acted, .acted, .acted,
      .acted, .acted, .acted, .returned .run () (.ok ()), .moved .runner, .moved .runner,
      .moved .runner, .begun .stepOne, .acted, .acted, .acted, .acted, .acted, .acted, .acted,
      .returned .stepOne () (.ok ()), .moved .runner, .moved .runner, .moved .runner,
      .moved .runner, .moved .runner] { state := twice } :=
    .cons (.begin _ rfl) <| .cons (.act rfl rfl) <| .cons (.act rfl rfl) <|
      .cons (.act rfl rfl) <| .cons (.act rfl rfl) <| .cons (.act rfl rfl) <|
      .cons (.act rfl rfl) <| .cons (.leave rfl) <| .cons (.move (.newest .test)) <|
      .cons (.move (.newest (.act rfl))) <| .cons (.move (.newest (.act rfl))) <|
      .cons (.begin _ rfl) <| .cons (.act rfl rfl) <| .cons (.act rfl rfl) <|
      .cons (.act rfl rfl) <| .cons (.act rfl rfl) <| .cons (.act rfl rfl) <|
      .cons (.act rfl rfl) <| .cons (.act rfl rfl) <| .cons (.leave rfl) <|
      .cons (.move (.newest (.act rfl))) <| .cons (.move (.newest (.act rfl))) <|
      .cons (.move (.newest (.act rfl))) <| .cons (.move (.newest (.act rfl))) <|
      .cons (.move (.newest (.act rfl))) .nil
  obtain ⟨-, -, -, -, hreset, -⟩ := execution_protocol hbefore hafter
  obtain ⟨-, -, hcounted⟩ := hreset [.begun (.reset 4 8), .acted, .acted, .acted, .acted, .acted,
    .acted, .acted] 4 8 (.ok ()) rfl
  exact ⟨hbefore, hafter, (hcounted (by simp [ClientEvent.Admitted, Request.resets])).free rfl⟩

end Monitor68.Simulator.Bench
