import Monitor68.Proofs.Target.Continuous
import Monitor68.Proofs.Threads.Counting

/-!
# The end of a run

A thread that executes continuously has one way to go, so once it is known
to come to an end it cannot do otherwise: `Halts` says that there is no
endless sequence of its moves, and that wherever no thread can move any
more all of them have finished and the cells are as given.

The thread goes round its loop as often as the steps go on (`goes_out`),
so what a run leaves behind is what the steps leave.
`run_is_repeated_steps` says so of the simulator's own loop, and of every
way in which the request to run and the threads can take turns.
-/

namespace Monitor68.Simulator

open Script Relation

variable {s t : Simulator} {n : Nat}

/-! ## One thread -/

/-- A thread has one way to go on. -/
theorem Runner.Step.unique {c c₁ c₂ : Cells} {w w₁ w₂ : Runner} (h₁ : w.Step c c₁ w₁)
    (h₂ : w.Step c c₂ w₂) : (c₂, w₂) = (c₁, w₁) := by
  cases h₁ <;> cases h₂ <;> rfl

/-- A thread at the head of its loop takes the steps and leaves it. -/
theorem Runner.goes_out {c : Cells} (hlock : c.lock = none) (h : StepsOut s n t)
    (hengine : c.engine = { s with running := true }) :
    Goes (c, .testing) ({ c with engine := { t with running := false } }, .finished) := by
  induction h generalizing c with
  | failed fails =>
    have hround := goes_turn hlock (by rw [hengine])
    rw [hengine, turn_of_failed fails] at hround
    exact .tail hround .finish
  | stopped leads hit =>
    have hround := goes_turn hlock (by rw [hengine])
    rw [hengine, turn_of_stopped leads hit] at hround
    exact .tail hround .finish
  | further leads miss _ ih =>
    have hround := goes_turn hlock (by rw [hengine])
    rw [hengine, turn_of_further leads miss] at hround
    exact .trans hround (ih hlock rfl)

namespace Bench

variable {b b' : Bench} {c : Cells}

/-! ## All threads -/

/-- The threads come to an end, in whatever order they move, and leave the cells
as given. -/
structure Halts (b : Bench) (c : Cells) : Prop where
  finite : Acc (fun after before => Moves .runner before after) b
  final : ∀ b', ReflTransGen (Moves .runner) b b' → (∀ b'', ¬ Moves .runner b' b'') →
    b'.cells = c ∧ ∀ w ∈ b'.threads, w = .finished

/-- The earlier threads have come to an end, and the newest one can go to an end
and leave the cells as given. -/
structure Headed (b : Bench) (c : Cells) : Prop where
  earlier : ∀ w ∈ b.earlier, w = .finished
  newest : Runner.Goes (b.cells, b.newest) (c, .finished)

/-- Where the earlier threads have come to an end, only the newest one moves. -/
theorem newest_of_moves (hearlier : ∀ w ∈ b.earlier, w = .finished)
    (hmove : Moves .runner b b') :
    ∃ cells newest, b.newest.Step b.cells cells newest ∧ b' = { b with cells, newest } := by
  cases hmove with
  | newest hstep => exact ⟨_, _, hstep, rfl⟩
  | @earlier _ _ w _ front back hw hstep =>
    obtain rfl : w = .finished := hearlier w (by simp [hw])
    cases hstep

theorem Headed.moves (h : b.Headed c) (hmove : Moves .runner b b') : b'.Headed c := by
  obtain ⟨cells, newest, hstep, rfl⟩ := newest_of_moves h.earlier hmove
  refine ⟨h.earlier, ?_⟩
  rcases ReflTransGen.cases_head h.newest with hend | ⟨p, hfirst, hrest⟩
  · obtain ⟨-, hfinished⟩ := Prod.mk.inj hend
    rw [hfinished] at hstep
    cases hstep
  · rwa [hfirst.unique hstep]

/-- Since the newest thread has one way to go, it does what it can do. -/
theorem Headed.halts (h : b.Headed c) : b.Halts c := by
  obtain ⟨hearlier, hgoes⟩ := h
  -- By induction on what the newest thread has left to do: any move of the bench is its
  -- first step, since the earlier threads have none.
  generalize hp : (b.cells, b.newest) = p at hgoes
  induction hgoes using ReflTransGen.head_induction_on generalizing b with
  | refl =>
    obtain ⟨rfl, hnewest⟩ := Prod.mk.inj hp
    have hstill : ∀ b', ¬ Moves .runner b b' := by
      intro b' hmove
      obtain ⟨_, _, hstep, -⟩ := newest_of_moves hearlier hmove
      rw [hnewest] at hstep
      cases hstep
    refine ⟨⟨b, fun b' hmove => absurd hmove (hstill b')⟩, fun b' hmoves _ => ?_⟩
    rcases ReflTransGen.cases_head hmoves with rfl | ⟨_, hmove, -⟩
    · exact ⟨rfl, fun w hw => (List.mem_cons.1 hw).elim (·.trans hnewest) (hearlier w)⟩
    · exact absurd hmove (hstill _)
  | head hstep _ ih =>
    subst hp
    have hnext : ∀ b', Moves .runner b b' → b'.Halts c := by
      intro b' hmove
      obtain ⟨_, _, hstep', rfl⟩ := newest_of_moves hearlier hmove
      exact ih hearlier (hstep.unique hstep')
    refine ⟨⟨b, fun b' hmove => (hnext b' hmove).finite⟩, fun b' hmoves hstill => ?_⟩
    rcases ReflTransGen.cases_head hmoves with rfl | ⟨b'', hmove, hrest⟩
    · exact absurd (.newest hstep) (hstill _)
    · exact (hnext b'' hmove).final b' hrest hstill

/-! ## The request to run -/

/-- No thread is in its loop, and the newest one is held or has come to its
end. -/
structure Ending (held : Bool) (b : Bench) : Prop where
  earlier : ∀ w ∈ b.earlier, w = .finished
  newest : b.newest.inLoop = false
  quiet : held = false → b.quiet = true

/-- Nothing is executed, and the commander holds on to the newest thread if it
has not come to its end. -/
def Idle (b : Bench) : Prop := b.Ending b.held

/-- Outside its loop a thread has nothing left to do but to end. -/
theorem Ending.moves {held : Bool} (h : b.Ending held) (hrunning : b.cells.engine.running = false)
    (hmove : Moves .runner b b') :
    b'.Ending held ∧ b'.cells = b.cells ∧ b'.held = b.held := by
  obtain ⟨cells, newest, hstep, rfl⟩ := newest_of_moves h.earlier hmove
  have hwork : b.quiet = false := hstep.not_finished
  have hheld : held ≠ false := fun hheld => by simp [h.quiet hheld] at hwork
  have hsame : cells = b.cells ∧ newest.inLoop = false := by
    have hout : b.newest.inLoop = false := h.newest
    generalize b.newest = w at hstep hout
    cases hstep with
    | clear =>
      refine ⟨?_, rfl⟩
      rw [← hrunning]
    | finish => exact ⟨rfl, rfl⟩
    | _ => cases hout
  obtain ⟨rfl, hnewest⟩ := hsame
  exact ⟨⟨h.earlier, hnewest, fun hfree => absurd hfree hheld⟩, rfl, rfl⟩

theorem Ending.finished (h : b.Ending false) : ∀ w ∈ b.threads, w = .finished :=
  fun w hw => (List.mem_cons.1 hw).elim (·.trans (newest_of_quiet (h.quiet rfl))) (h.earlier w)

section Stability

variable (c : Cells)

theorem stable_idle (hrunning : c.engine.running = false) :
    Stable (Moves .runner) fun b => b.Idle ∧ b.cells = c := by
  intro b b' hb hmove
  obtain ⟨hidle, rfl⟩ := hb
  obtain ⟨hending, hcells, hheld⟩ := hidle.moves hrunning hmove
  refine ⟨?_, hcells⟩
  rwa [Idle, hheld]

theorem stable_ending (hrunning : c.engine.running = false) (held : Bool) :
    Stable (Moves .runner) fun b => b.Ending held ∧ b.cells = c := by
  intro b b' hb hmove
  obtain ⟨hending, rfl⟩ := hb
  obtain ⟨hending', hcells, -⟩ := hending.moves hrunning hmove
  exact ⟨hending', hcells⟩

/-- When all threads have come to an end, nothing changes. -/
theorem stable_ended : Stable (Moves .runner) fun b => b.Ending false ∧ b.cells = c := by
  refine stable_of_blocked fun b b' hmove hb => ?_
  obtain ⟨_, _, hstep, -⟩ := newest_of_moves hb.1.earlier hmove
  rw [newest_of_quiet (hb.1.quiet rfl)] at hstep
  cases hstep

theorem stable_headed : Stable (Moves .runner) fun b => b.Headed c :=
  fun _ _ hb hmove => hb.moves hmove

end Stability

/-- To wait for the end of the thread held is to wait for the end of all. -/
theorem join_finishes (hrunning : c.engine.running = false) (h : b.Idle ∧ b.cells = c) :
    Ensures (Moves .runner) (fun _ _ => True) (fun _ b' => b'.Ending false ∧ b'.cells = c)
      join b := by
  have hending := stable_ending c hrunning
  refine Ensures.bind (M := fun held b => b.Ending held ∧ b.cells = c)
    (.once (stable_idle c hrunning) hending h fun b hb _ => ⟨trivial, ?_, hb.2⟩) fun held b hb => ?_
  · exact ⟨hb.1.earlier, hb.1.newest, hb.1.quiet⟩
  cases held with
  | false => exact .pure (hending false) hb
  | true =>
    exact .once (hending true) (fun _ => hending false) hb fun b hb hquiet =>
      ⟨trivial, ⟨hb.1.earlier, hb.1.newest, fun _ => hquiet⟩, hb.2⟩

theorem run_headed (hlock : c.lock = none) (hengine : c.engine = s)
    (hpowered : s.powered = true) (hrunning : s.running = false) (hout : StepsOut s n t)
    (h : b.Idle ∧ b.cells = c) :
    Ensures (Moves .runner) (fun _ _ => True)
      (fun answer b' => answer = .ok () ∧
        b'.Headed { c with engine := { t with running := false } }) Bench.run b := by
  subst hengine
  -- Up to the start of the thread nothing but the flag is touched, and from then on the
  -- thread is headed for the cells that the steps leave.
  let begun : Cells := { c with engine := { c.engine with running := true } }
  let ended : Cells := { c with engine := { t with running := false } }
  have hidling := stable_idle c hrunning
  have hheaded := stable_headed ended
  refine Ensures.bind (M := fun powered b => powered = true ∧ b.Idle ∧ b.cells = c)
    (.once hidling (fun _ => hidling.given _) h fun b hb _ => ⟨trivial, ?_, hb⟩) ?_
  · show b.cells.engine.powered = true
    rw [hb.2, hpowered]
  intro powered b hb
  obtain ⟨rfl, hb⟩ := hb
  rw [if_pos rfl]
  refine Ensures.bind (M := fun running b => running = false ∧ b.Idle ∧ b.cells = c)
    (.once hidling (fun _ => hidling.given _) hb fun b hb _ => ⟨trivial, ?_, hb⟩) ?_
  · show b.cells.engine.running = false
    rw [hb.2, hrunning]
  intro running b hb
  obtain ⟨rfl, hb⟩ := hb
  rw [if_neg Bool.false_ne_true]
  refine (join_finishes hrunning hb).bind fun _ b hb => ?_
  refine Ensures.bind (M := fun _ b => b.Ending false ∧ b.cells = begun)
    (.once (stable_ended c) (fun _ => stable_ended begun) hb fun b hb _ => ⟨trivial, ?_⟩) ?_
  · obtain ⟨hending, rfl⟩ := hb
    exact ⟨⟨hending.earlier, hending.newest, hending.quiet⟩, rfl⟩
  intro _ b hb
  refine Ensures.bind (M := fun _ b => b.Headed ended)
    (.once (stable_ended begun) (fun _ => hheaded) hb fun b hb _ => ⟨trivial, ?_⟩) ?_
  · obtain ⟨hending, hcells⟩ := hb
    refine ⟨hending.finished, ?_⟩
    show Runner.Goes (b.cells, .testing) (ended, .finished)
    rw [hcells]
    exact Runner.goes_out hlock hout rfl
  intro _ b hb
  refine Ensures.bind (M := fun _ b => b.Headed ended)
    (.once hheaded (fun _ => hheaded) hb fun b hb _ => ⟨trivial, hb.earlier, hb.newest⟩) ?_
  exact fun _ b hb => .pure (hheaded.given _) ⟨rfl, hb⟩

/-- Outside its loop a thread goes to its end, and the running flag is clear
behind it. -/
theorem Ending.goes {held : Bool} (h : b.Ending held) (hrunning : b.cells.engine.running = false) :
    ∃ b', ReflTransGen (Moves .runner) b b' ∧ b'.quiet = true ∧
      b'.cells.engine.running = false := by
  obtain ⟨cells, newest, earlier, held'⟩ := b
  have hout : newest.inLoop = false := h.newest
  cases newest with
  | testing | stepping | looking => cases hout
  | clearing => exact ⟨_, .head (.newest .clear) (.single (.newest .finish)), rfl, rfl⟩
  | returning => exact ⟨_, .single (.newest .finish), rfl, hrunning⟩
  | finished => exact ⟨_, .refl, rfl, hrunning⟩

/-- The request to run can be answered. -/
theorem exists_run_leads (hrunning : b.cells.engine.running = false) (h : b.Idle) :
    ∃ answer b', Leads (Moves .runner) Bench.run b answer b' := by
  obtain ⟨b', hgoes, hquiet, hrunning'⟩ := h.goes hrunning
  exact ⟨_, _, .movedStar hgoes (run_leads hquiet hrunning')⟩

end Bench

/-- What continuous execution leaves behind is what single steps leave, repeated
until one fails or leads to a breakpoint for supervisor program fetches, and
it comes to an end.

The steps go one way.  They change the program counter and the count only;
none is taken exactly if the first would fail, and other breakpoints make no
difference to them.  The loop of the simulator takes them; and when the
request to run has been answered on a bench where nothing is executed, no
order in which the threads move is endless, and in the end all have finished
and the simulator is as the steps leave it. -/
theorem run_is_repeated_steps (s : Simulator) (hsize : s.memory.size ≤ 0xFFFFFFFE)
    (hpowered : s.powered = true) (hidle : s.running = false) :
    ∃ n t, StepsOut s n t ∧ (∀ n' t', StepsOut s n' t' → n' = n ∧ t' = t) ∧
      t = { s with registers := s.registers.advanced n, steps := s.steps + n } ∧
      t.running = false ∧ t.powered = true ∧
      (n = 0 ↔ s.memory.size ≤ (s.registers.pc + 2).toNat) ∧
      (∀ slots, (∀ address, Stops slots address ↔ Stops s.slots address) →
        StepsOut { s with slots } n { t with slots }) ∧
      s.run.map settle = .ok t ∧
      ∀ b : Bench, b.cells.engine = s → b.cells.lock = none → b.Idle →
        (∃ answer b', Leads (Bench.Moves .runner) Bench.run b answer b') ∧
        ∀ answer b', Leads (Bench.Moves .runner) Bench.run b answer b' →
          answer = .ok () ∧ b'.Halts { b.cells with engine := t } := by
  obtain ⟨n, hn, t, hout⟩ := exists_stepsOut (s := s) (by simp only [UInt32.size]; omega) hpowered
  have hframe : t = { s with registers := s.registers.advanced n, steps := s.steps + n } :=
    hout.frame
  have hrest : t.running = false := by rw [hframe, hidle]
  have hended : ({ t with running := false } : Simulator) = t := by rw [← hrest]
  have hrun : s.run = .ok { s with running := true } := if_pos hpowered
  refine ⟨n, t, hout, fun n' t' => hout.unique, hframe, hrest, by rw [hframe, hpowered],
    hout.eq_zero_iff hpowered, fun slots => hout.of_stops, ?_, ?_⟩
  · have hsettle : settle { s with running := true } = { t with running := false } :=
      runFor_of_stepsOut hout hn
    rw [hrun, Except.map, hsettle, hended]
  · intro b hengine hlock hb
    have hensured := Bench.run_headed hlock hengine hpowered hidle hout ⟨hb, rfl⟩
    refine ⟨Bench.exists_run_leads (hengine ▸ hidle) hb, fun answer b' hleads => ?_⟩
    obtain ⟨hanswer, hheaded⟩ := hensured.of_leads hleads
    rw [hended] at hheaded
    exact ⟨hanswer, hheaded.halts⟩

/-- A simulator at address four.  Breakpoints for supervisor program fetches are
set there and at eight, and one for supervisor data at six. -/
def watched : Simulator where
  memory := .blank 16
  registers := .atEntry 4 8
  slots := .ofFn fun
    | 0 => some ⟨4, .supervisorProgram⟩
    | 1 => some ⟨6, ⟨0x04⟩⟩
    | 2 => some ⟨8, .supervisor⟩
    | _ => none
  powered := true

/-- Neither the breakpoint it begins at ends the run nor the one for data. -/
theorem run_to_breakpoint :
    ∃ t, watched.run.map settle = .ok t ∧ t.registers.pc = 8 ∧ t.steps = 2 ∧
      ∀ answer b', Leads (Bench.Moves .runner) Bench.run (.of watched) answer b' →
        answer = .ok () ∧ b'.Halts { (Cells.of watched) with engine := t } := by
  obtain ⟨n, t, -, hunique, -, -, -, -, -, hrun, hbench⟩ :=
    run_is_repeated_steps watched (by decide) rfl rfl
  have hsteps : StepsOut watched 2 watched.stepped.stepped :=
    .further rfl (by decide) (.stopped rfl (by decide))
  obtain ⟨rfl, rfl⟩ := hunique _ _ hsteps
  have hidle : (Bench.of watched).Idle := ⟨nofun, rfl, fun _ => rfl⟩
  exact ⟨_, hrun, rfl, rfl, (hbench (.of watched) rfl rfl hidle).2⟩

end Monitor68.Simulator
