import Monitor68.Image
import Monitor68.Proofs.Target.Blocks

/-!
# What data records put into memory

Data records may overlap, and the last one that covers an address decides
its byte.  `lastByte?` says which byte that is without running anything:
it goes through the records in reading order and keeps the last byte that
one of them has for the address.  `deposit` writes the records one after
the other, and `cell?_deposit` shows that it leaves just those bytes.

A simulator takes records up to the first that does not lie in its memory
(`place_of_fits` and `place_of_unfit`).  The record that does not fit
writes nothing.
-/

namespace Monitor68.Image

open SRecord

/-- The byte that a record has for an address. -/
def byteAt? (address : Nat) : Record → Option UInt8
  | .data start payload =>
    if start.toNat ≤ address then payload[address - start.toNat]? else none
  | .start _ => none

/-- The byte that the last record covering an address has for it. -/
def lastByte? (records : List Record) (address : Nat) : Option UInt8 :=
  (records.filterMap (byteAt? address)).getLast?

/-- Whether a record lies in a memory of `size` bytes.  An empty payload
counts as well: its address must not be past the end. -/
def Fits (size : Nat) : Record → Prop
  | .data address payload => address.toNat + payload.length ≤ size
  | .start _ => True

instance (size : Nat) : DecidablePred (Fits size)
  | .data address payload => inferInstanceAs (Decidable (address.toNat + payload.length ≤ size))
  | .start _ => inferInstanceAs (Decidable True)

/-- The memory with the data records written to it in their order. -/
def deposit : Memory → List Record → Memory
  | m, [] => m
  | m, .start _ :: rest => deposit m rest
  | m, .data address payload :: rest => deposit (m.setCells address.toNat payload) rest

/-! ## The last byte -/

/-- A record decides the byte of an address only if no later one does. -/
theorem lastByte?_cons (r : Record) (rest : List Record) (address : Nat) :
    lastByte? (r :: rest) address = (lastByte? rest address).or (byteAt? address r) := by
  unfold lastByte?
  rw [List.filterMap_cons]
  cases h : byteAt? address r with
  | none => simp
  | some b =>
    rw [List.getLast?_cons]
    cases (rest.filterMap (byteAt? address)).getLast? with
    | none => rfl
    | some c => rfl

/-- Of two groups of records the later one decides first. -/
theorem lastByte?_append (xs ys : List Record) (address : Nat) :
    lastByte? (xs ++ ys) address = (lastByte? ys address).or (lastByte? xs address) := by
  unfold lastByte?
  rw [List.filterMap_append, List.getLast?_append]

/-! ## The bytes that are left -/

@[simp] theorem size_deposit (m : Memory) (records : List Record) :
    (deposit m records).size = m.size := by
  induction records generalizing m with
  | nil => rfl
  | cons r rest ih =>
    cases r with
    | data address payload => rw [deposit, ih, Memory.size_setCells]
    | start address => rw [deposit, ih]

theorem deposit_append (m : Memory) (xs ys : List Record) :
    deposit m (xs ++ ys) = deposit (deposit m xs) ys := by
  induction xs generalizing m with
  | nil => rfl
  | cons r rest ih => cases r <;> exact ih _

/-- The view of a memory after one record that fits in it. -/
theorem cell?_setCells_byteAt? (m : Memory) {start : UInt32} {payload : List UInt8}
    (h : Fits m.size (.data start payload)) (address : Nat) :
    (m.setCells start.toNat payload).cell? address =
      (byteAt? address (.data start payload)).or (m.cell? address) := by
  rw [Memory.cell?_setCells m start.toNat payload h, byteAt?]
  by_cases hle : start.toNat ≤ address
  · rw [if_pos hle, if_pos hle]
    by_cases hlt : address - start.toNat < payload.length
    · rw [dif_pos hlt, List.getElem?_eq_getElem hlt]
      rfl
    · rw [dif_neg hlt, List.getElem?_eq_none (by omega)]
      rfl
  · rw [if_neg hle, if_neg hle]
    rfl

/-- The view of a memory after records that fit in it: the byte of the last
record that covers the address, and what was there where none does. -/
theorem cell?_deposit (m : Memory) (records : List Record)
    (h : ∀ r ∈ records, Fits m.size r) (address : Nat) :
    (deposit m records).cell? address = (lastByte? records address).or (m.cell? address) := by
  induction records generalizing m with
  | nil => rfl
  | cons r rest ih =>
    have hr : Fits m.size r := h r (by simp)
    have hrest : ∀ r ∈ rest, Fits m.size r := fun r hmem => h r (by simp [hmem])
    rw [lastByte?_cons]
    cases r with
    | data start payload =>
      rw [deposit, ih _ (by rwa [Memory.size_setCells]), cell?_setCells_byteAt? m hr,
        Option.or_assoc]
    | start address => rw [deposit, ih m hrest, byteAt?, Option.or_none]

/-- Memory behind its end has no cells, so what a view outside of the
records shows is bounded by the size. -/
theorem lt_size_of_lastByte? {size : Nat} {records : List Record}
    (h : ∀ r ∈ records, Fits size r) {address : Nat} {b : UInt8}
    (hb : lastByte? records address = some b) : address < size := by
  have hmem : b ∈ records.filterMap (byteAt? address) := List.mem_of_getLast? hb
  obtain ⟨r, hr, hrb⟩ := List.mem_filterMap.1 hmem
  have hfit := h r hr
  cases r with
  | start start => simp [byteAt?] at hrb
  | data start payload =>
    rw [byteAt?] at hrb
    split at hrb
    · obtain ⟨hlt, -⟩ := List.getElem?_eq_some_iff.1 hrb
      have hle : start.toNat + payload.length ≤ size := hfit
      omega
    · cases hrb

/-! ## Placing records in a simulator -/

/-- Records that fit are all placed. -/
theorem place_of_fits (s : Simulator) (records : List Record)
    (h : ∀ r ∈ records, Fits s.memory.size r) :
    place s records = ({ s with memory := deposit s.memory records }, .ok ()) := by
  induction records generalizing s with
  | nil => rfl
  | cons r rest ih =>
    have hr : Fits s.memory.size r := h r (by simp)
    have hrest : ∀ r ∈ rest, Fits s.memory.size r := fun r hmem => h r (by simp [hmem])
    cases r with
    | start address => rw [place, deposit, ih s hrest]
    | data address payload =>
      have hwrite : Engine.writeBlock s address payload =
          ({ s with memory := s.memory.setCells address.toNat payload }, .ok ()) :=
        Simulator.writeBlock_of_fits hr
      rw [place, hwrite, deposit]
      exact ih _ (by simpa using hrest)

/-- Placing stops at the first record that does not fit, with the records
before it in memory. -/
theorem place_of_unfit (s : Simulator) {before after : List Record} {address : UInt32}
    {payload : List UInt8} (hbefore : ∀ r ∈ before, Fits s.memory.size r)
    (hunfit : ¬ Fits s.memory.size (.data address payload)) :
    place s (before ++ .data address payload :: after) =
      ({ s with memory := deposit s.memory before }, .error (.invalidAddress address)) := by
  induction before generalizing s with
  | nil =>
    have hwrite : Engine.writeBlock s address payload =
        (s, .error (.invalidAddress address)) := Simulator.writeBlock_of_not_fits hunfit
    rw [List.nil_append, place, hwrite, deposit]
  | cons r rest ih =>
    have hr : Fits s.memory.size r := hbefore r (by simp)
    have hrest : ∀ r ∈ rest, Fits s.memory.size r := fun r hmem => hbefore r (by simp [hmem])
    cases r with
    | start start => rw [List.cons_append, place, deposit, ih s hrest hunfit]
    | data start bytes =>
      have hwrite : Engine.writeBlock s start bytes =
          ({ s with memory := s.memory.setCells start.toNat bytes }, .ok ()) :=
        Simulator.writeBlock_of_fits hr
      rw [List.cons_append, place, hwrite, deposit]
      exact ih _ (by simpa using hrest) (by simpa using hunfit)

end Monitor68.Image
