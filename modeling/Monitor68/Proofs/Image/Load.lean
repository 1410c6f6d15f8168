import Mathlib.Data.List.TakeWhile
import Monitor68.Proofs.Image.Covering
import Monitor68.Proofs.Image.Reading

/-!
# What a load leaves behind

A load into a simulator either comes to its end or stops at one of two
places: at the first line that is not sound, before anything has happened,
or at the first data record that does not lie in memory, with the data
before it written and nothing else changed.  The three cases exclude each
other, so `load_into_simulator` can say exactly when a load succeeds, and
`load_fails` says what is left when it does not.

* `enter_simulator` is the last stage, which cannot fail: the only
  breakpoint it sets goes into a slot of a table that was just cleared.
* `entryOf_entryPoint` says which entry point an image has, without
  running through it.
* `load_of_sound`, `load_of_fault` and `load_of_unfit` are the three cases.
-/

namespace Monitor68.Image

open SRecord

/-! ## The entry point -/

/-- The entry point of an image: the start address that no later record
replaces, or the base address if no record names one. -/
inductive EntryOf (base : UInt32) (records : List Record) : EntryPoint → Prop where
  | named {before after : List Record} {address : UInt32}
      (split : records = before ++ .start address :: after)
      (last : ∀ other, Record.start other ∉ after) :
      EntryOf base records { address, explicit := true }
  | unnamed (none : ∀ other, Record.start other ∉ records) :
      EntryOf base records { address := base, explicit := false }

/-- Records name a start address only through start records. -/
theorem startOf_eq_some_iff {r : Record} {address : UInt32} :
    startOf r = some address ↔ r = .start address := by
  cases r <;> simp [startOf]

theorem filterMap_startOf_eq_nil_iff {records : List Record} :
    records.filterMap startOf = [] ↔ ∀ other, Record.start other ∉ records := by
  rw [List.filterMap_eq_nil_iff]
  constructor
  · intro h other hmem
    cases h _ hmem
  · intro h r hr
    cases r with
    | data address payload => rfl
    | start address => exact absurd hr (h address)

theorem entryOf_entryPoint (base : UInt32) (records : List Record) :
    EntryOf base records (entryPoint base records) := by
  unfold entryPoint
  cases h : (records.filterMap startOf).getLast? with
  | none =>
    exact .unnamed (filterMap_startOf_eq_nil_iff.1 (List.getLast?_eq_none_iff.1 h))
  | some address =>
    obtain ⟨front, hfront⟩ := List.getLast?_eq_some_iff.1 h
    obtain ⟨before, rest, hsplit, -, hrest⟩ := List.filterMap_eq_append_iff.1 hfront
    obtain ⟨skipped, r, after, hr, -, hstart, hafter⟩ := List.filterMap_eq_cons_iff.1 hrest
    rw [startOf_eq_some_iff] at hstart
    subst hstart hr
    have hrecords : records = (before ++ skipped) ++ .start address :: after := by
      rw [hsplit, List.append_assoc]
    exact .named hrecords (filterMap_startOf_eq_nil_iff.1 hafter)

/-- The breakpoints that an entry point asks for. -/
def entryBreakpoints (entry : EntryPoint) : List Breakpoint :=
  if entry.explicit then [{ slot := 0, address := entry.address, mask := .supervisor }] else []

/-- The slots of a simulator that was entered at an entry point. -/
def entrySlots (entry : EntryPoint) : Vector (Option Stop) 16 :=
  if entry.explicit then
    (Vector.replicate 16 none).set 0 (some { address := entry.address, mask := .supervisor })
  else .replicate 16 none

/-- Both sides list the same breakpoints after an entry. -/
theorem breakpoints_entrySlots (s : Simulator) (entry : EntryPoint)
    (h : s.slots = entrySlots entry) : s.breakpoints = entryBreakpoints entry := by
  unfold Simulator.breakpoints entryBreakpoints
  rw [h]
  unfold entrySlots
  cases entry.explicit <;> rfl

/-- To enter a simulator replaces the breakpoints on both sides and resets
it.  The first slot of a cleared table is free, so nothing can fail. -/
theorem enter_simulator (t : Target Simulator) (entry : EntryPoint) (stack : UInt32) :
    enter t entry stack =
      ({ engine := { t.engine with slots := entrySlots entry }.reset entry.address stack
         breakpoints := { list := entryBreakpoints entry } }, .ok ()) := by
  obtain ⟨address, explicit⟩ := entry
  cases explicit <;> rfl

/-! ## The three ways a load can go -/

/-- A load of sound lines whose records fit succeeds. -/
theorem load_of_sound (t : Target Simulator) (base stack : UInt32)
    {lines : List (Except Files.FileError String)} (hsound : ∀ line ∈ lines, Sound line)
    (hfits : ∀ r ∈ lines.filterMap recordOf?, Fits t.engine.memory.size r) :
    let records := lines.filterMap recordOf?
    let entry := entryPoint base records
    load t base stack lines =
      ({ engine :=
          { t.engine with memory := deposit t.engine.memory records
                          slots := entrySlots entry }.reset entry.address stack
         breakpoints := { list := entryBreakpoints entry } }, .ok entry) := by
  intro records entry
  rw [load, records_of_sound hsound]
  show install t base stack records = _
  rw [install, place_of_fits t.engine records hfits]
  simp only [enter_simulator]
  rfl

/-- A load stops at the first line that is not sound, and the target is as
it was. -/
theorem load_of_fault {ε : Type} [Engine ε] (t : Target ε) (base stack : UInt32)
    {before after : List (Except Files.FileError String)}
    {line : Except Files.FileError String} {error : LoadError}
    (hbefore : ∀ line ∈ before, Sound line)
    (h : faultOf? (before.length + 1) line = some error) :
    load t base stack (before ++ line :: after) = (t, .error error) := by
  rw [load, records_of_fault hbefore h]

/-- A load of sound lines stops at the first record that does not fit, with
the records before it in memory. -/
theorem load_of_unfit (t : Target Simulator) (base stack : UInt32)
    {lines : List (Except Files.FileError String)} (hsound : ∀ line ∈ lines, Sound line)
    {before after : List Record} {address : UInt32} {payload : List UInt8}
    (hrecords : lines.filterMap recordOf? = before ++ .data address payload :: after)
    (hbefore : ∀ r ∈ before, Fits t.engine.memory.size r)
    (hunfit : ¬ Fits t.engine.memory.size (.data address payload)) :
    load t base stack lines =
      ({ t with engine := { t.engine with memory := deposit t.engine.memory before } },
        .error (.engine (.invalidAddress address))) := by
  rw [load, records_of_sound hsound, hrecords]
  show install t base stack _ = _
  rw [install, place_of_unfit t.engine hbefore hunfit]

/-- Records that do not all fit have a first one that does not, and it is a
data record. -/
theorem exists_first_unfit {size : Nat} {records : List Record}
    (h : ¬ ∀ r ∈ records, Fits size r) :
    ∃ before address payload after,
      records = before ++ .data address payload :: after ∧
        (∀ r ∈ before, Fits size r) ∧ ¬ Fits size (.data address payload) := by
  obtain ⟨before, r, after, hrecords, hbefore, hunfit⟩ := exists_first h
  cases r with
  | start address => exact absurd trivial hunfit
  | data address payload =>
    exact ⟨before, address, payload, after, hrecords, hbefore, hunfit⟩

/-- A load into a simulator succeeds exactly if all lines are sound and all
records fit. -/
theorem load_ok_iff (t : Target Simulator) (base stack : UInt32)
    (lines : List (Except Files.FileError String)) :
    (∃ entry, (load t base stack lines).2 = .ok entry) ↔
      (∀ line ∈ lines, Sound line) ∧
        ∀ r ∈ lines.filterMap recordOf?, Fits t.engine.memory.size r := by
  constructor
  · intro hload
    obtain ⟨entry, hentry⟩ := hload
    by_cases hsound : ∀ line ∈ lines, Sound line
    · refine ⟨hsound, ?_⟩
      by_contra hfits
      obtain ⟨before, address, payload, after, hrecords, hbefore, hunfit⟩ :=
        exists_first_unfit hfits
      rw [load_of_unfit t base stack hsound hrecords hbefore hunfit] at hentry
      cases hentry
    · obtain ⟨before, line, after, error, hlines, hbefore, herror⟩ :=
        exists_first_fault hsound
      rw [hlines, load_of_fault t base stack hbefore herror] at hentry
      cases hentry
  · intro hfine
    obtain ⟨hsound, hfits⟩ := hfine
    exact ⟨_, congrArg Prod.snd (load_of_sound t base stack hsound hfits)⟩

/-! ## What is placed -/

/-- The records that a load of the given lines puts into a memory of `size`
bytes, whether it comes to its end or not. -/
def placed (size : Nat) (lines : List (Except Files.FileError String)) : List Record :=
  match records lines with
  | .error _ => []
  | .ok records => records.takeWhile fun r => decide (Fits size r)

theorem fits_of_mem_placed {size : Nat} {lines : List (Except Files.FileError String)}
    {r : Record} (h : r ∈ placed size lines) : Fits size r := by
  unfold placed at h
  split at h
  · cases h
  · have hfits := List.mem_takeWhile_imp h
    exact of_decide_eq_true hfits

/-- Sound lines whose records fit are placed as a whole. -/
theorem placed_of_sound {size : Nat} {lines : List (Except Files.FileError String)}
    (hsound : ∀ line ∈ lines, Sound line) (hfits : ∀ r ∈ lines.filterMap recordOf?, Fits size r) :
    placed size lines = lines.filterMap recordOf? := by
  rw [placed, records_of_sound hsound]
  refine List.takeWhile_eq_self_iff.2 ?_
  intro r hr
  exact decide_eq_true (hfits r hr)

/-- Of sound lines the records in front of the first that does not fit are
placed. -/
theorem placed_of_unfit {size : Nat} {lines : List (Except Files.FileError String)}
    (hsound : ∀ line ∈ lines, Sound line) {before after : List Record} {r : Record}
    (hrecords : lines.filterMap recordOf? = before ++ r :: after)
    (hbefore : ∀ r ∈ before, Fits size r) (hunfit : ¬ Fits size r) :
    placed size lines = before := by
  rw [placed, records_of_sound hsound, hrecords]
  show (before ++ r :: after).takeWhile _ = before
  rw [List.takeWhile_append_of_pos (fun r hr => decide_eq_true (hbefore r hr)),
    List.takeWhile_cons_of_neg (by simpa using hunfit), List.append_nil]

/-- A load changes the memory of a simulator by the records it places. -/
theorem memory_load (t : Target Simulator) (base stack : UInt32)
    (lines : List (Except Files.FileError String)) :
    (load t base stack lines).1.engine.memory =
      deposit t.engine.memory (placed t.engine.memory.size lines) := by
  by_cases hsound : ∀ line ∈ lines, Sound line
  · by_cases hfits : ∀ r ∈ lines.filterMap recordOf?, Fits t.engine.memory.size r
    · rw [load_of_sound t base stack hsound hfits, placed_of_sound hsound hfits]
      rfl
    · obtain ⟨before, address, payload, rest, hrecords, hbefore, hunfit⟩ :=
        exists_first_unfit hfits
      rw [load_of_unfit t base stack hsound hrecords hbefore hunfit,
        placed_of_unfit hsound hrecords hbefore hunfit]
  · obtain ⟨before, line, rest, error, hlines, hbefore, herror⟩ := exists_first_fault hsound
    rw [placed, hlines, load_of_fault t base stack hbefore herror,
      records_of_fault hbefore herror]
    rfl

/-! ## Success -/

/-- A load into a simulator succeeds exactly if all lines of the image are
sound and all its records fit.  Then memory holds what the last record
covering an address put there, the breakpoints are those of the entry
point, and the registers, the interrupts and the power are those of a
reset. -/
theorem load_into_simulator (t : Target Simulator) (base stack : UInt32) (c : Files.Contents) :
    let records := c.lines.filterMap recordOf?
    let out := load t base stack c.lines
    ((∃ entry, out.2 = .ok entry) ↔
      (∀ line ∈ c.lines, Sound line) ∧ ∀ r ∈ records, Fits t.engine.memory.size r) ∧
    ∀ entry, out.2 = .ok entry →
      EntryOf base records entry ∧
      (∀ address, out.1.engine.memory.cell? address =
        (lastByte? records address).or (t.engine.memory.cell? address)) ∧
      out.1.breakpoints.list = entryBreakpoints entry ∧
      out.1.engine.breakpoints = entryBreakpoints entry ∧
      out.1.engine.registers.pc = entry.address ∧
      out.1.engine.registers.sr = 0x2700 ∧
      (∀ i : Fin 8, out.1.engine.registers.d[i] = 0) ∧
      (∀ i : Fin 8, out.1.engine.registers.a[i] = if i = 7 then stack else 0) ∧
      out.1.engine.interrupts = [] ∧
      out.1.engine.powered = true ∧ out.1.engine.running = false := by
  intro records out
  refine ⟨load_ok_iff t base stack c.lines, ?_⟩
  intro entry hentry
  obtain ⟨hsound, hfits⟩ := (load_ok_iff t base stack c.lines).1 ⟨entry, hentry⟩
  have hout : out = _ := load_of_sound t base stack hsound hfits
  rw [hout] at hentry ⊢
  cases hentry
  refine ⟨entryOf_entryPoint base records, cell?_deposit _ _ hfits, rfl,
    breakpoints_entrySlots _ _ rfl, rfl, rfl, ?_, ?_, rfl, rfl, rfl⟩
  · intro i
    show (Vector.replicate 8 (0 : UInt32))[i] = 0
    simp
  · intro i
    show ((Vector.replicate 8 (0 : UInt32)).set 7 stack)[i] = _
    by_cases hi : i = 7
    · subst hi
      rfl
    · have hne : 7 ≠ i.val := fun h => hi (Fin.ext h.symm)
      simp [hi, hne]

/-- One byte for address 1, and execution to start at address 2. -/
def oneByte : Files.Contents where
  bytes := Text.encodeUtf8 "S1040001CC00\nS9030002FA\n".toList

theorem load_one_byte :
    let out := load { engine := Simulator.blank 16 } 0x8000 0x9200 oneByte.lines
    ∃ entry, out.2 = .ok entry ∧
      EntryOf 0x8000 (oneByte.lines.filterMap recordOf?) entry ∧
      out.1.engine.memory.cell? 1 = some 0xCC ∧ out.1.engine.memory.cell? 2 = some 0 ∧
      out.1.engine.breakpoints = entryBreakpoints entry := by
  intro out
  obtain ⟨hiff, hok⟩ :=
    load_into_simulator { engine := Simulator.blank 16 } 0x8000 0x9200 oneByte
  have hclean : ∀ line ∈ oneByte.lines, faultOf? 1 line = none := by decide +kernel
  have hsound : ∀ line ∈ oneByte.lines, Sound line :=
    fun line hline => (faultOf?_eq_none_iff 1 line).1 (hclean line hline)
  have hfits : ∀ r ∈ oneByte.lines.filterMap recordOf?, Fits 16 r := by decide +kernel
  obtain ⟨entry, hentry⟩ := hiff.2 ⟨hsound, hfits⟩
  obtain ⟨hof, hcell, -, hbreakpoints, -⟩ := hok entry hentry
  refine ⟨entry, hentry, hof, ?_, ?_, hbreakpoints⟩
  · rw [hcell]
    decide +kernel
  · rw [hcell]
    decide +kernel

/-! ## Failure -/

/-- What a failed load leaves behind.  If some line is not sound, the first
such line decides the error, whatever the engine is, and the target is as
it was.  If all lines are sound and some record does not lie in the memory
of a simulator, the address of the first such record is the error, and
memory alone has changed, by the records before it. -/
theorem load_fails {ε : Type} [Engine ε] (t : Target ε) (u : Target Simulator)
    (base stack : UInt32) (c : Files.Contents) :
    ((∃ line ∈ c.lines, ¬ Sound line) →
      ∃ before line after error,
        c.lines = before ++ line :: after ∧ (∀ line ∈ before, Sound line) ∧
        faultOf? (before.length + 1) line = some error ∧
        load t base stack c.lines = (t, .error error)) ∧
    ((∀ line ∈ c.lines, Sound line) →
      (∃ r ∈ c.lines.filterMap recordOf?, ¬ Fits u.engine.memory.size r) →
      ∃ before address payload after memory,
        c.lines.filterMap recordOf? = before ++ .data address payload :: after ∧
        (∀ r ∈ before, Fits u.engine.memory.size r) ∧
        ¬ Fits u.engine.memory.size (.data address payload) ∧
        load u base stack c.lines =
          ({ u with engine := { u.engine with memory } },
            .error (.engine (.invalidAddress address))) ∧
        memory.size = u.engine.memory.size ∧
        ∀ place, memory.cell? place =
          (lastByte? before place).or (u.engine.memory.cell? place)) := by
  constructor
  · intro hbad
    obtain ⟨bad, hbad, hfault⟩ := hbad
    obtain ⟨before, line, after, error, hlines, hbefore, herror⟩ :=
      exists_first_fault fun hall => hfault (hall bad hbad)
    refine ⟨before, line, after, error, hlines, hbefore, herror, ?_⟩
    rw [hlines]
    exact load_of_fault t base stack hbefore herror
  · intro hsound hbad
    obtain ⟨bad, hbad, hunfit⟩ := hbad
    obtain ⟨before, address, payload, after, hrecords, hbefore, hlast⟩ :=
      exists_first_unfit fun hall => hunfit (hall bad hbad)
    exact ⟨before, address, payload, after, deposit u.engine.memory before, hrecords, hbefore,
      hlast, load_of_unfit u base stack hsound hrecords hbefore hlast, size_deposit _ _,
      cell?_deposit _ _ hbefore⟩

/-- A record for address 0 and one past the end of sixteen bytes. -/
def halfFitting : Files.Contents where
  bytes := Text.encodeUtf8 "S1040000AA00\nS10400FFBB00\n".toList

/-- A proper record and one that its count cuts short. -/
def halfSound : Files.Contents where
  bytes := Text.encodeUtf8 "S1040000AA00\nS1\n".toList

theorem load_half_fails :
    let t : Target Simulator := { engine := Simulator.blank 16 }
    (∃ before line after error,
      halfSound.lines = before ++ line :: after ∧ (∀ line ∈ before, Sound line) ∧
      faultOf? (before.length + 1) line = some error ∧
      load t 0x8000 0x9200 halfSound.lines = (t, .error error)) ∧
    ∃ before address payload after memory,
      halfFitting.lines.filterMap recordOf? = before ++ .data address payload :: after ∧
      ¬ Fits 16 (.data address payload) ∧
      load t 0x8000 0x9200 halfFitting.lines =
        ({ t with engine := { t.engine with memory } },
          .error (.engine (.invalidAddress address))) := by
  intro t
  constructor
  · refine (load_fails t t 0x8000 0x9200 halfSound).1 ?_
    have hfault : ∃ line ∈ halfSound.lines, faultOf? 2 line ≠ none := by decide +kernel
    obtain ⟨line, hline, hne⟩ := hfault
    exact ⟨line, hline, fun hsound => hne ((faultOf?_eq_none_iff 2 line).2 hsound)⟩
  · have hclean : ∀ line ∈ halfFitting.lines, faultOf? 1 line = none := by decide +kernel
    have hsound : ∀ line ∈ halfFitting.lines, Sound line :=
      fun line hline => (faultOf?_eq_none_iff 1 line).1 (hclean line hline)
    have hunfit : ∃ r ∈ halfFitting.lines.filterMap recordOf?, ¬ Fits 16 r := by decide +kernel
    obtain ⟨before, address, payload, after, memory, hrecords, -, hlast, hload, -⟩ :=
      (load_fails t t 0x8000 0x9200 halfFitting).2 hsound hunfit
    exact ⟨before, address, payload, after, memory, hrecords, hlast, hload⟩

end Monitor68.Image
