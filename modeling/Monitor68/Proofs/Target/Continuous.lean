import Monitor68.Proofs.Target.Slots

/-!
# Continuous execution

Continuous execution is single steps, repeated until one fails or leads to
a breakpoint for supervisor program fetches.  `StepsOut` says that without
a running flag and without a bound on the steps.  A breakpoint is looked
for behind a step only, so the one at which the execution begins does not
end it.

The steps come to an end because memory does.  The program counter moves
on by two bytes and wraps around at the top of the address space, and the
top two addresses catch the even counters and the odd ones; where both are
outside memory, no more steps than there are counters of one parity lead
to one of them (`exists_beyond`).

`runFor_of_stepsOut` is the simulator's own loop, which has the running
flag set and counts down from a bound.
-/

namespace Monitor68.Simulator

variable {s t : Simulator} {n : Nat}

/-! ## One step -/

/-- The simulator after a step within memory. -/
def stepped (s : Simulator) : Simulator :=
  { s with
    registers := { s.registers with pc := s.registers.pc + 2 }
    steps := s.steps + 1 }

theorem stepOne_of_powered (h : s.powered = true) :
    s.stepOne =
      if (s.registers.pc + 2).toNat < s.memory.size then .ok s.stepped
      else .error (.invalidAddress (s.registers.pc + 2)) :=
  if_pos h

theorem stepOne_eq_ok_iff :
    s.stepOne = .ok t ↔
      s.powered = true ∧ (s.registers.pc + 2).toNat < s.memory.size ∧ t = s.stepped := by
  by_cases hpowered : s.powered = true
  · rw [stepOne_of_powered hpowered]
    split
    · rename_i hwithin
      rw [Except.ok.injEq]
      exact ⟨fun h => ⟨hpowered, hwithin, h.symm⟩, fun h => h.2.2.symm⟩
    · rename_i hbeyond
      exact ⟨nofun, fun h => absurd h.2.1 hbeyond⟩
  · have hoff : s.stepOne = .error .notPowered := if_neg hpowered
    rw [hoff]
    exact ⟨nofun, fun h => absurd h.1 hpowered⟩

/-- A change to what a step does not look at may come before the step or
behind it. -/
theorem stepOne_map {f : Simulator → Simulator} (hpowered : ∀ s, (f s).powered = s.powered)
    (hregisters : ∀ s, (f s).registers = s.registers) (hmemory : ∀ s, (f s).memory = s.memory)
    (hstepped : ∀ s, (f s).stepped = f s.stepped) (s : Simulator) :
    (f s).stepOne = s.stepOne.map f := by
  by_cases h : s.powered = true
  · rw [stepOne_of_powered h, stepOne_of_powered ((hpowered s).trans h), hregisters, hmemory,
      hstepped]
    split <;> rfl
  · have hoff : s.stepOne = .error .notPowered := if_neg h
    rw [hoff]
    exact if_neg (by rwa [hpowered])

theorem slots_of_stepOne (h : s.stepOne = .ok t) : t.slots = s.slots := by
  obtain ⟨-, -, rfl⟩ := stepOne_eq_ok_iff.1 h
  rfl

/-! ## Breakpoints -/

/-- In a table of slots a breakpoint for supervisor program fetches is set at an
address. -/
def Stops (slots : SlotTable) (address : UInt32) : Prop :=
  ∃ b ∈ slots.breakpoints, b.address = address ∧ b.mask.contains .supervisorProgram = true

instance (slots : SlotTable) (address : UInt32) : Decidable (Stops slots address) :=
  inferInstanceAs (Decidable (∃ b ∈ slots.breakpoints, _))

theorem hitsBreakpoint_iff (s : Simulator) (address : UInt32) :
    s.hitsBreakpoint address = true ↔ Stops s.slots address := by
  unfold hitsBreakpoint Stops SlotTable.breakpoints
  rw [Vector.any_eq_true]
  constructor
  · intro h
    obtain ⟨slot, hslot, hstop⟩ := h
    cases hcontents : s.slots[slot] with
    | none => simp [hcontents] at hstop
    | some stop =>
      simp only [hcontents, Bool.and_eq_true, beq_iff_eq] at hstop
      have hmem : (some stop, slot) ∈ s.slots.toList.zipIdx := by
        rw [List.mem_zipIdx_iff_getElem?]
        simp [hslot, hcontents]
      exact ⟨_, List.mem_filterMap.2 ⟨_, hmem, rfl⟩, hstop⟩
  · intro h
    obtain ⟨b, hb, haddress, hmask⟩ := h
    obtain ⟨⟨contents, slot⟩, hmem, hfound⟩ := List.mem_filterMap.1 hb
    obtain ⟨stop, rfl, rfl⟩ := Option.map_eq_some_iff.1 hfound
    obtain ⟨-, hslot, hcontents⟩ := List.mem_zipIdx hmem
    simp only [Nat.zero_add, Vector.length_toList] at hslot
    refine ⟨slot, hslot, ?_⟩
    have hsome : s.slots[slot] = some stop := by simpa using hcontents.symm
    simp only [hsome, Bool.and_eq_true, beq_iff_eq]
    exact ⟨haddress, hmask⟩

/-! ## Repeated steps -/

/-- Steps are taken until one fails or leads to a breakpoint; so many of them
succeed. -/
inductive StepsOut : Simulator → Nat → Simulator → Prop where
  | failed {s : Simulator} {error : EngineError} (fails : s.stepOne = .error error) :
      StepsOut s 0 s
  | stopped {s t : Simulator} (leads : s.stepOne = .ok t) (hit : Stops t.slots t.registers.pc) :
      StepsOut s 1 t
  | further {s t u : Simulator} {n : Nat} (leads : s.stepOne = .ok t)
      (miss : ¬ Stops t.slots t.registers.pc) (rest : StepsOut t n u) : StepsOut s (n + 1) u

namespace StepsOut

/-- There is one way for the steps to go. -/
theorem unique {t' : Simulator} {n' : Nat} (h : StepsOut s n t) (h' : StepsOut s n' t') :
    n' = n ∧ t' = t := by
  induction h generalizing n' t' with
  | failed fails =>
    cases h' with
    | failed => exact ⟨rfl, rfl⟩
    | stopped leads | further leads => simp [fails] at leads
  | stopped leads hit =>
    cases h' with
    | failed fails => simp [leads] at fails
    | stopped leads' =>
      obtain rfl := Except.ok.inj (leads.symm.trans leads')
      exact ⟨rfl, rfl⟩
    | further leads' miss =>
      obtain rfl := Except.ok.inj (leads.symm.trans leads')
      exact absurd hit miss
  | further leads miss _ ih =>
    cases h' with
    | failed fails => simp [leads] at fails
    | stopped leads' hit =>
      obtain rfl := Except.ok.inj (leads.symm.trans leads')
      exact absurd hit miss
    | further leads' _ rest' =>
      obtain rfl := Except.ok.inj (leads.symm.trans leads')
      obtain ⟨rfl, rfl⟩ := ih rest'
      exact ⟨rfl, rfl⟩

/-- Each step moves the program counter on by two bytes and is counted, and
nothing else is changed. -/
theorem frame (h : StepsOut s n t) :
    t = { s with
      registers := { s.registers with pc := s.registers.pc + UInt32.ofNat (2 * n) }
      steps := s.steps + n } := by
  have hshift : ∀ (pc : UInt32) (n : Nat),
      pc + 2 + UInt32.ofNat (2 * n) = pc + UInt32.ofNat (2 * (n + 1)) := by
    intro pc n
    rw [Nat.mul_add, UInt32.ofNat_add, UInt32.add_assoc, UInt32.add_comm 2]
    rfl
  induction h with
  | failed => simp
  | stopped leads =>
    obtain ⟨-, -, rfl⟩ := stepOne_eq_ok_iff.1 leads
    rfl
  | further leads _ _ ih =>
    obtain ⟨-, -, rfl⟩ := stepOne_eq_ok_iff.1 leads
    rw [ih]
    simp only [stepped, hshift, Nat.add_assoc, Nat.add_comm 1]

/-- The first step decides whether there is any, whatever breakpoints are
set. -/
theorem eq_zero_iff (h : StepsOut s n t) (hpowered : s.powered = true) :
    n = 0 ↔ s.memory.size ≤ (s.registers.pc + 2).toNat := by
  rw [← Nat.not_lt]
  cases h with
  | failed fails =>
    refine iff_of_true rfl fun hwithin => ?_
    rw [stepOne_of_powered hpowered, if_pos hwithin] at fails
    cases fails
  | stopped leads | further leads =>
    obtain ⟨-, hwithin, -⟩ := stepOne_eq_ok_iff.1 leads
    exact iff_of_false (Nat.succ_ne_zero _) (not_not_intro hwithin)

/-- Only breakpoints for supervisor program fetches have a part in the steps. -/
theorem of_stops {slots : SlotTable} (h : StepsOut s n t)
    (hstops : ∀ address, Stops slots address ↔ Stops s.slots address) :
    StepsOut { s with slots } n { t with slots } := by
  have hstep := stepOne_map (f := fun s => { s with slots }) (fun _ => rfl) (fun _ => rfl)
    (fun _ => rfl) fun _ => rfl
  induction h with
  | @failed s error fails =>
    have hfails : stepOne { s with slots } = .error error := by
      rw [hstep, fails]
      rfl
    exact .failed hfails
  | stopped leads hit =>
    refine .stopped (by rw [hstep, leads]; rfl) ?_
    rwa [hstops, ← slots_of_stepOne leads]
  | further leads miss _ ih =>
    have hsame := slots_of_stepOne leads
    refine .further (by rw [hstep, leads]; rfl) ?_ (ih fun address => ?_)
    · rwa [hstops, ← hsame]
    · rw [hstops, hsame]

end StepsOut

/-! ## The steps come to an end -/

/-- Where the top two addresses are outside memory, the program counter comes
outside before it comes round. -/
theorem exists_beyond {size : Nat} (hsize : size + 2 ≤ UInt32.size) (pc : UInt32) :
    ∃ k < UInt32.size / 2, ¬ (pc.toNat + 2 * (k + 1)) % UInt32.size < size := by
  have hpc : pc.toNat < UInt32.size := pc.toNat_lt
  simp only [UInt32.size] at hsize hpc ⊢
  -- Below the end of memory the counter walks up to it; at the top it wraps around
  -- first; anywhere else the first step already fails.
  by_cases hlow : pc.toNat < size
  · exact ⟨(size - pc.toNat + 1) / 2 - 1, by omega, by omega⟩
  · by_cases htop : pc.toNat + 2 < 4294967296
    · exact ⟨0, by omega, by omega⟩
    · exact ⟨(size + 4294967296 - (pc.toNat + 2) + 1) / 2, by omega, by omega⟩

/-- Steps that would lead outside memory come to an end before they do. -/
theorem exists_stepsOut_of_beyond (hpowered : s.powered = true) {k : Nat}
    (hbeyond : ¬ (s.registers.pc.toNat + 2 * (k + 1)) % UInt32.size < s.memory.size) :
    ∃ n ≤ k, ∃ t, StepsOut s n t := by
  have hnext : ∀ pc : UInt32, (pc + 2).toNat = (pc.toNat + 2) % UInt32.size :=
    fun pc => UInt32.toNat_add pc 2
  induction k generalizing s with
  | zero =>
    rw [← hnext] at hbeyond
    exact ⟨0, Nat.le_refl 0, s, .failed (by rw [stepOne_of_powered hpowered, if_neg hbeyond])⟩
  | succ k ih =>
    by_cases hwithin : (s.registers.pc + 2).toNat < s.memory.size
    · have hleads : s.stepOne = .ok s.stepped := stepOne_eq_ok_iff.2 ⟨hpowered, hwithin, rfl⟩
      by_cases hit : Stops s.stepped.slots s.stepped.registers.pc
      · exact ⟨1, Nat.succ_le_succ (Nat.zero_le k), s.stepped, .stopped hleads hit⟩
      · have hshift : (s.stepped.registers.pc.toNat + 2 * (k + 1)) % UInt32.size =
            (s.registers.pc.toNat + 2 * (k + 1 + 1)) % UInt32.size := by
          have hpc : s.stepped.registers.pc = s.registers.pc + 2 := rfl
          rw [hpc, hnext]
          simp only [UInt32.size]
          omega
        obtain ⟨n, hn, t, hrest⟩ := ih (s := s.stepped) hpowered (by rwa [hshift])
        exact ⟨n + 1, Nat.succ_le_succ hn, t, .further hleads hit hrest⟩
    · exact ⟨0, Nat.zero_le _, s, .failed (by rw [stepOne_of_powered hpowered, if_neg hwithin])⟩

/-- With memory below the top two addresses the steps come to an end. -/
theorem exists_stepsOut (hsize : s.memory.size + 2 ≤ UInt32.size) (hpowered : s.powered = true) :
    ∃ n < UInt32.size / 2, ∃ t, StepsOut s n t := by
  obtain ⟨k, hk, hbeyond⟩ := exists_beyond hsize s.registers.pc
  obtain ⟨n, hn, t, hout⟩ := exists_stepsOut_of_beyond hpowered hbeyond
  exact ⟨n, by omega, t, hout⟩

/-! ## The loop of the simulator -/

/-- The running simulator steps as the other one does. -/
theorem stepOne_started (s : Simulator) :
    ({ s with running := true } : Simulator).stepOne =
      s.stepOne.map fun t => { t with running := true } :=
  stepOne_map (f := fun s => { s with running := true }) (fun _ => rfl) (fun _ => rfl)
    (fun _ => rfl) (fun _ => rfl) s

/-- A turn whose step fails. -/
theorem turn_of_failed {error : EngineError} (h : s.stepOne = .error error) :
    turn { s with running := true } = { s with running := false } := by
  simp only [turn, stepOne_started, h, Except.map, if_true]

/-- A turn whose step leads to a breakpoint. -/
theorem turn_of_stopped (h : s.stepOne = .ok t) (hit : Stops t.slots t.registers.pc) :
    turn { s with running := true } = { t with running := false } := by
  have hhit : hitsBreakpoint { t with running := true } t.registers.pc = true :=
    (hitsBreakpoint_iff _ _).2 hit
  simp only [turn, stepOne_started, h, Except.map, hhit, if_true]

/-- A turn whose step leads elsewhere. -/
theorem turn_of_further (h : s.stepOne = .ok t) (miss : ¬ Stops t.slots t.registers.pc) :
    turn { s with running := true } = { t with running := true } := by
  have hmiss : ¬ hitsBreakpoint { t with running := true } t.registers.pc = true :=
    fun hit => miss ((hitsBreakpoint_iff _ _).1 hit)
  simp only [turn, stepOne_started, h, Except.map, if_true, if_neg hmiss]

theorem runFor_of_idle (fuel : Nat) (h : s.running = false) : runFor fuel s = s := by
  cases fuel with
  | zero => rfl
  | succ fuel => rw [runFor, if_neg (by rw [h]; exact Bool.false_ne_true)]

/-- The loop takes the steps and clears the running flag. -/
theorem runFor_of_stepsOut {fuel : Nat} (h : StepsOut s n t) (hfuel : n < fuel) :
    runFor fuel { s with running := true } = { t with running := false } := by
  induction h generalizing fuel with
  | failed fails =>
    obtain ⟨fuel, rfl⟩ := Nat.exists_eq_add_of_lt hfuel
    rw [runFor, if_pos rfl, turn_of_failed fails, runFor_of_idle _ rfl]
  | stopped leads hit =>
    obtain ⟨fuel, rfl⟩ := Nat.exists_eq_add_of_lt hfuel
    rw [runFor, if_pos rfl, turn_of_stopped leads hit, runFor_of_idle _ rfl]
  | further leads miss _ ih =>
    obtain ⟨fuel, rfl⟩ := Nat.exists_eq_add_of_lt hfuel
    rw [runFor, if_pos rfl, turn_of_further leads miss]
    exact ih (by omega)

end Monitor68.Simulator
