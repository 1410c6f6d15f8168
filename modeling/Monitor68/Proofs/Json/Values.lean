import Monitor68.Proofs.Json.Members
import Monitor68.Proofs.Text.Digits
import Monitor68.Settings.Reader

/-!
# Reading the values of fields

A whole number is written in decimal digits without superfluous zeros, and
read back if it is below the bound of its reader.  The readers of all
widths are one reader with different bounds.  A field that is given a value
is an entry of its record, and reading back the value is all that is asked
of the field.
-/

namespace Monitor68.Json

/-! ## Numbers and truth values -/

/-- A number in decimal digits. -/
def WrittenNat (n : Nat) (text : List Char) : Prop := text = Nat.toDigits 10 n

def WrittenBool (b : Bool) (text : List Char) : Prop :=
  text = (if b then "true" else "false").toList

/-- The reader reads what is written of a value as a view of the value. -/
def ReadsBack {α β : Type} (Written : α → List Char → Prop) (read : List Token → Read β)
    (view : α → β) : Prop :=
  ∀ value text, Written value text → ∃ tokens, Lexes text tokens ∧
    ∀ rest, read (tokens ++ rest) = .ok (view value, rest)

theorem whole_toDigits (n : Nat) : Whole (Nat.toDigits 10 n) where
  ne_nil := Nat.toDigits_ne_nil
  isDigit _ h := Nat.isDigit_of_mem_toDigits (by decide) (by decide) h
  no_zero h := by
    obtain rfl | hn := Nat.eq_zero_or_pos n
    · rfl
    · exact absurd h (Text.Numeral.head?_toDigits hn)

theorem takeWhole_append {m n : Nat} {front : List Nat} (h : takeWhole m front = (n, 0))
    (back : List Nat) : takeWhole m (front ++ back) = takeWhole n back := by
  induction front generalizing m with
  | nil =>
    obtain rfl : m = n := congrArg Prod.fst h
    rfl
  | cons d ds ih =>
    rw [takeWhole] at h
    rw [List.cons_append, takeWhole]
    split at h
    · rw [if_pos ‹_›]
      exact ih h
    · exact absurd (congrArg Prod.snd h) (Nat.succ_ne_zero _)

theorem digit?_digitChar {d : Nat} (hd : d < 10) : digit? d.digitChar = some d := by
  have hall : ∀ d < 10, digit? d.digitChar = some d := by decide
  exact hall d hd

theorem takeWhole_toDigits {n : Nat} (h : n < significandBound) :
    takeWhole 0 ((Nat.toDigits 10 n).filterMap digit?) = (n, 0) := by
  induction n using Nat.strongRecOn with
  | ind n ih =>
    by_cases hlt : n < 10
    · rw [Nat.toDigits_of_lt_base hlt, List.filterMap_cons_some (digit?_digitChar hlt),
        List.filterMap_nil, takeWhole, if_pos (by omega), Nat.zero_mul, Nat.zero_add]
      rfl
    · have hlast : n % 10 < 10 := Nat.mod_lt n (by decide)
      have hvalue : n / 10 * 10 + n % 10 = n := Nat.div_add_mod' n 10
      rw [Nat.toDigits_of_base_le (by decide) (Nat.le_of_not_lt hlt), List.filterMap_append,
        List.filterMap_cons_some (digit?_digitChar hlast), List.filterMap_nil,
        takeWhole_append (ih (n / 10) (by omega) (by omega)), takeWhole, hvalue, if_pos h]
      rfl

/-- A word is read back from its decimal digits. -/
theorem readsBack_below {α : Type} {bound : Nat} {toNat : α → Nat} {ofNat : Nat → α}
    {read : List Token → Read α} (hbound : bound ≤ significandBound)
    (hlt : ∀ value, toNat value < bound) (hof : ∀ value, ofNat (toNat value) = value)
    (hread : ∀ tokens,
      read tokens = (readBelow bound tokens).map fun (n, rest) => (ofNat n, rest)) :
    ReadsBack (fun value => WrittenNat (toNat value)) read id := by
  intro value text htext
  subst htext
  have hwhole : Numeral.whole? { whole := (Nat.toDigits 10 (toNat value)).filterMap digit? } =
      some (toNat value) := by
    simp only [Numeral.whole?, takeWhole_toDigits (Nat.lt_of_lt_of_le (hlt value) hbound)]
  refine ⟨_, (whole_toDigits (toNat value)).lexes, fun rest => ?_⟩
  rw [hread, List.singleton_append]
  simp only [readBelow, hwhole, if_pos (hlt value)]
  exact congrArg (fun word => Except.ok (word, rest)) (hof value)

theorem readsBack_uint8 : ReadsBack (fun v : UInt8 => WrittenNat v.toNat) readUInt8 id :=
  readsBack_below (by decide) UInt8.toNat_lt (fun _ => UInt8.ofNat_toNat) fun _ => rfl

theorem readsBack_uint32 : ReadsBack (fun v : UInt32 => WrittenNat v.toNat) readUInt32 id :=
  readsBack_below (by decide) UInt32.toNat_lt (fun _ => UInt32.ofNat_toNat) fun _ => rfl

theorem readsBack_uint64 : ReadsBack (fun v : UInt64 => WrittenNat v.toNat) readUInt64 id :=
  readsBack_below (by decide) UInt64.toNat_lt (fun _ => UInt64.ofNat_toNat) fun _ => rfl

theorem readsBack_bool : ReadsBack WrittenBool readBool id := by
  intro value text htext
  subst htext
  cases value with
  | true => exact ⟨_, lexes_true, fun _ => rfl⟩
  | false => exact ⟨_, lexes_false, fun _ => rfl⟩

/-! ## Fields that are given a value -/

section Fields

variable {σ α β : Type}

/-- The entry of a field, if the field is given a value. -/
def Entry.given? (name : String) (Written : α → List Char → Prop) (store : σ → α → σ)
    (value : Option α) : Option (Entry σ) :=
  value.map fun v => { name, Written := Written v, store := (store · v) }

theorem Entry.readBy_of {name : String} {Written : α → List Char → Prop} {store : σ → α → σ}
    {value : Option α} {e : Entry σ} {read : List Token → Read β} {view : α → β}
    {store' : σ → β → σ} (hread : ReadsBack Written read view)
    (hstore : ∀ record v, store record v = store' record (view v))
    (h : some e = Entry.given? name Written store value) :
    e.ReadBy (.of name read store') := by
  obtain ⟨v, -, rfl⟩ := Option.map_eq_some_iff.1 h.symm
  refine ⟨rfl, fun text htext => ?_⟩
  obtain ⟨tokens, hlexes, hread⟩ := hread v text htext
  refine ⟨tokens, hlexes, fun record rest => ?_⟩
  show (read (tokens ++ rest)).map _ = Except.ok (store record v, rest)
  rw [hread, hstore]
  rfl

theorem Entry.apart_of {name name' : String} {Written : α → List Char → Prop}
    {Written' : β → List Char → Prop} {store : σ → α → σ} {store' : σ → β → σ}
    {value : Option α} {value' : Option β} (hne : name ≠ name')
    (hcomm : ∀ record a b, store (store' record b) a = store' (store record a) b) :
    ∀ e, id (Entry.given? name Written store value) = some e →
      ∀ e', id (Entry.given? name' Written' store' value') = some e' → e.Apart e' := by
  intro e he e' he'
  obtain ⟨v, -, rfl⟩ := Option.map_eq_some_iff.1 he
  obtain ⟨v', -, rfl⟩ := Option.map_eq_some_iff.1 he'
  exact ⟨hne, fun record => hcomm record v v'⟩

end Fields

end Monitor68.Json
