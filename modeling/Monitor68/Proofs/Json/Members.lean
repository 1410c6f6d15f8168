import Mathlib.Data.List.Forall2
import Mathlib.Data.List.Pairwise
import Mathlib.Data.List.ReduceOption
import Monitor68.Proofs.Json.Passing

/-!
# Reading the members of an object

`Writes` says what a text writes of a record: it is an object, each of
whose members gives an entry of the record or has a name of its own and
any value, and the entries that are given are those that were to be
written, in some order.

What reading one member does is said once, by `Member.Gives.read`, and the
members of an object are an induction on their list.  The order does not
matter since entries of different fields store in different places, which
is what `Entry.Apart` says.
-/

namespace Monitor68.Json

/-! ## Objects as they are written -/

/-- A member of an object as it is written. -/
structure Member where
  name : List Char
  letters : List Char
  value : List Char
  /-- The white space in front of the name. -/
  front : List Char := []
  /-- The white space before the colon. -/
  before : List Char := []
  /-- The white space behind the colon. -/
  behind : List Char := []
  /-- The white space behind the value. -/
  back : List Char := []
  spells : Spells letters name
  gap_front : Gap front := by exact Gap.nil
  gap_before : Gap before := by exact Gap.nil
  gap_behind : Gap behind := by exact Gap.nil
  gap_back : Gap back := by exact Gap.nil

def Member.text (m : Member) : List Char :=
  m.front ++ ('"' :: (m.letters ++ ['"']) ++ m.before ++
    ':' :: (m.behind ++ (m.value ++ m.back)))

/-- The texts of an object with the given members in their order. -/
inductive ObjectOf : List Member → List Char → Prop where
  | empty {gap : List Char} (isGap : Gap gap) : ObjectOf [] ('\x7b' :: (gap ++ ['\x7d']))
  | members (m : Member) (ms : List Member) :
      ObjectOf (m :: ms)
        ('\x7b' :: (m.text ++ (ms.flatMap fun m => ',' :: m.text) ++ ['\x7d']))

/-- Something that is written of a record of type `σ`: the name of a field,
the texts of its value, and what the value makes of the record. -/
structure Entry (σ : Type) where
  name : String
  Written : List Char → Prop
  store : σ → σ

variable {σ : Type}

/-- Entries of different fields, which store in different places. -/
structure Entry.Apart (a b : Entry σ) : Prop where
  name_ne : a.name ≠ b.name
  comm : ∀ record, a.store (b.store record) = b.store (a.store record)

/-- What a member gives to a record whose fields have the given names. -/
inductive Member.Gives (names : List String) (m : Member) : Option (Entry σ) → Prop where
  | nothing (foreign : ∀ name ∈ names, m.name ≠ name.toList) (value : Derives .value m.value) :
      Gives names m none
  | entry (e : Entry σ) (name_eq : m.name = e.name.toList) (written : e.Written m.value) :
      Gives names m (some e)

/-- A text that writes the given entries, in any order and among any other
members. -/
def Writes (names : List String) (entries : List (Entry σ)) (text : List Char) : Prop :=
  ∃ ms given, ObjectOf ms text ∧ List.Forall₂ (Member.Gives names) ms given ∧
    given.reduceOption.Perm entries

/-! ## One member -/

/-- The field reads what is written of the entry. -/
structure Entry.ReadBy (e : Entry σ) (field : RecordField σ) : Prop where
  name_eq : field.name = e.name
  read : ∀ text, e.Written text → ∃ tokens, Lexes text tokens ∧
    ∀ record rest, field.read record (tokens ++ rest) = .ok (e.store record, rest)

/-- The entries are those of fields of a record, whose names differ. -/
structure Covers (fields : List (RecordField σ)) (names : List String)
    (entries : List (Entry σ)) : Prop where
  names_eq : fields.map RecordField.name = names
  nodup : names.Nodup
  readBy : ∀ e ∈ entries, ∃ field ∈ fields, e.ReadBy field
  apart : entries.Pairwise Entry.Apart

theorem find?_field {fields : List (RecordField σ)} (hnodup : (fields.map RecordField.name).Nodup)
    {field : RecordField σ} (hfield : field ∈ fields) :
    fields.find? (fun f => f.name.toList == field.name.toList) = some field := by
  induction fields with
  | nil => exact nomatch hfield
  | cons first rest ih =>
    rw [List.map_cons, List.nodup_cons] at hnodup
    obtain rfl | hrest := List.mem_cons.1 hfield
    · exact List.find?_cons_of_pos (by simp)
    · have hne : first.name ≠ field.name := fun heq =>
        hnodup.1 (heq ▸ List.mem_map_of_mem hrest)
      rw [List.find?_cons_of_neg (by simpa [String.toList_inj] using hne)]
      exact ih hnodup.2 hrest

/-- What a member makes of a record. -/
def stored (given : Option (Entry σ)) (record : σ) : σ := given.elim record (·.store record)

/-- The names that were seen after a member. -/
def seenAfter (given : Option (Entry σ)) (seen : List String) : List String :=
  given.elim seen (·.name :: seen)

/-- A member is cut into its key, a colon and the tokens of its value. -/
theorem Member.lexes (m : Member) {tokens : List Token} (h : Lexes m.value tokens) :
    ∃ pieces, Lexes m.text (.string pieces none :: .colon :: tokens) ∧
      decodePieces none pieces = .ok m.name := by
  obtain ⟨pieces, hletters, hdenotes⟩ := m.spells
  have hkey := hletters.lexes.before_gap m.gap_before
  have hvalue := (h.before_gap m.gap_back).behind_gap m.gap_behind
  exact ⟨pieces, (hkey.joined mark_colon hvalue).behind_gap m.gap_front,
    decodePieces_of_denotes hdenotes⟩

theorem Member.Gives.read {fields : List (RecordField σ)} {names : List String}
    {entries : List (Entry σ)} (hcovers : Covers fields names entries) {m : Member}
    {given : Option (Entry σ)} (h : m.Gives names given) (hmem : ∀ e ∈ given, e ∈ entries) :
    ∃ tokens, Lexes m.value tokens ∧ ∀ seen record rest, (∀ e ∈ given, e.name ∉ seen) →
      readMember fields seen record m.name (.colon :: (tokens ++ rest)) =
        .ok ((stored given record, seenAfter given seen), rest) := by
  cases h with
  | nothing foreign value =>
    obtain ⟨tokens, hlexes, hskip⟩ := value.skipped
    have hnone : fields.find? (fun f => f.name.toList == m.name) = none := by
      rw [List.find?_eq_none]
      intro field hfield heq
      have hname : field.name ∈ names := hcovers.names_eq ▸ List.mem_map_of_mem hfield
      exact foreign _ hname (by simpa using heq : field.name.toList = m.name).symm
    refine ⟨tokens, hlexes, fun seen record rest _ => ?_⟩
    rw [readMember, hnone]
    dsimp only [readColon]
    rw [hskip]
    rfl
  | entry e name_eq written =>
    obtain ⟨field, hfield, hreadBy⟩ := hcovers.readBy e (hmem e rfl)
    obtain ⟨tokens, hlexes, hread⟩ := hreadBy.read m.value written
    have hsome : fields.find? (fun f => f.name.toList == m.name) = some field := by
      rw [name_eq, ← hreadBy.name_eq]
      exact find?_field (hcovers.names_eq ▸ hcovers.nodup) hfield
    refine ⟨tokens, hlexes, fun seen record rest hseen => ?_⟩
    have hfresh : field.name ∉ seen := hreadBy.name_eq ▸ hseen e rfl
    rw [readMember, hsome]
    dsimp only [readColon]
    rw [if_neg hfresh, hread, hreadBy.name_eq]
    rfl

/-! ## All members -/

/-- What members in their order make of a record. -/
def storedAll (given : List (Option (Entry σ))) (record : σ) : σ :=
  given.foldl (fun record given => stored given record) record

theorem storedAll_eq (given : List (Option (Entry σ))) (record : σ) :
    storedAll given record = given.reduceOption.foldl (fun record e => e.store record) record := by
  induction given generalizing record with
  | nil => rfl
  | cons first rest ih =>
    cases first with
    | none => exact ih record
    | some e => exact ih (e.store record)

/-- The members give entries whose names differ and were not seen before. -/
structure Fresh (seen : List String) (given : List (Option (Entry σ))) : Prop where
  nodup : (given.reduceOption.map Entry.name).Nodup
  not_seen : ∀ e ∈ given.reduceOption, e.name ∉ seen

theorem Fresh.cons {seen : List String} {first : Option (Entry σ)}
    {given : List (Option (Entry σ))} (h : Fresh seen (first :: given)) :
    (∀ e ∈ first, e.name ∉ seen) ∧ Fresh (seenAfter first seen) given := by
  obtain ⟨hnodup, hseen⟩ := h
  cases first with
  | none => exact ⟨fun e he => (nomatch he), hnodup, hseen⟩
  | some e =>
    rw [List.reduceOption_cons_of_some, List.map_cons, List.nodup_cons] at hnodup
    rw [List.reduceOption_cons_of_some, List.forall_mem_cons] at hseen
    refine ⟨fun e' he' => Option.some.inj he' ▸ hseen.1, hnodup.2, fun e' he' hmem => ?_⟩
    obtain heq | hmem := List.mem_cons.1 hmem
    · exact hnodup.1 (heq ▸ List.mem_map_of_mem he')
    · exact hseen.2 e' he' hmem

/-- Reading a member stores what it gives.  If the object does not end there,
reading goes on behind the comma. -/
theorem readMembers_cons {fields : List (RecordField σ)} {names : List String}
    {entries : List (Entry σ)} (hcovers : Covers fields names entries) {m : Member}
    {first : Option (Entry σ)} (h : m.Gives names first) (hmem : ∀ e ∈ first, e ∈ entries) :
    ∃ pieces tokens, Lexes m.text (.string pieces none :: tokens) ∧
      ∀ fuel seen record rest, (∀ e ∈ first, e.name ∉ seen) →
        readMembers fields (fuel + 1) seen record
            (.string pieces none :: (tokens ++ .endObject :: rest)) =
          .ok (stored first record, rest) ∧
        readMembers fields (fuel + 1) seen record
            (.string pieces none :: (tokens ++ .comma :: rest)) =
          readMembers fields fuel (seenAfter first seen) (stored first record) rest := by
  obtain ⟨tokens, hvalue, hread⟩ := h.read hcovers hmem
  obtain ⟨pieces, hlexes, hname⟩ := m.lexes hvalue
  refine ⟨pieces, .colon :: tokens, hlexes, fun fuel seen record rest hseen => ?_⟩
  have hkey : ∀ behind, readKey (.string pieces none :: behind) = .ok (m.name, behind) :=
    fun behind => by
      rw [readKey, hname]
      rfl
  constructor
  · rw [readMembers, hkey]
    dsimp only [List.cons_append]
    rw [hread _ _ _ hseen]
  · rw [readMembers, hkey]
    dsimp only [List.cons_append]
    rw [hread _ _ _ hseen]

/-- Reading members up to the end of their object stores what they give. -/
theorem readMembers_given {fields : List (RecordField σ)} {names : List String}
    {entries : List (Entry σ)} (hcovers : Covers fields names entries) {m : Member}
    {ms : List Member} {first : Option (Entry σ)} {given : List (Option (Entry σ))}
    (h : m.Gives names first) (hs : List.Forall₂ (Member.Gives names) ms given)
    (hmem : ∀ e, some e ∈ first :: given → e ∈ entries) :
    ∃ pieces tokens,
      Lexes (m.text ++ ms.flatMap fun m => ',' :: m.text) (.string pieces none :: tokens) ∧
      ms.length ≤ tokens.length ∧
      ∀ fuel seen record rest, ms.length ≤ fuel → Fresh seen (first :: given) →
        readMembers fields (fuel + 1) seen record
            (.string pieces none :: (tokens ++ .endObject :: rest)) =
          .ok (storedAll (first :: given) record, rest) := by
  -- The first member is kept apart from the others, since a comma is in front of those.
  induction hs generalizing m first with
  | nil =>
    have hfirst : ∀ e ∈ first, e ∈ entries := fun e he =>
      hmem e (Option.mem_def.1 he ▸ List.mem_cons_self)
    obtain ⟨pieces, tokens, hlexes, hread⟩ := readMembers_cons hcovers h hfirst
    refine ⟨pieces, tokens, by simpa using hlexes, Nat.zero_le _, ?_⟩
    intro fuel seen record rest _ hfresh
    exact (hread fuel seen record rest hfresh.cons.1).1
  | @cons next second ms given hnext hs ih =>
    have hfirst : ∀ e ∈ first, e ∈ entries := fun e he =>
      hmem e (Option.mem_def.1 he ▸ List.mem_cons_self)
    obtain ⟨pieces, tokens, hlexes, hread⟩ := readMembers_cons hcovers h hfirst
    have hrest : ∀ e, some e ∈ second :: given → e ∈ entries := fun e he =>
      hmem e (List.mem_cons_of_mem first he)
    obtain ⟨pieces', tokens', hlexes', hlength, hread'⟩ := ih hnext hrest
    refine ⟨pieces, tokens ++ .comma :: .string pieces' none :: tokens', ?_, ?_, ?_⟩
    · simpa using hlexes.joined mark_comma hlexes'
    · simp only [List.length_append, List.length_cons]
      omega
    · intro fuel seen record rest hfuel hfresh
      obtain ⟨hfirst, hfresh⟩ := hfresh.cons
      rw [List.length_cons] at hfuel
      obtain ⟨fuel, rfl⟩ : ∃ left, fuel = left + 1 := ⟨fuel - 1, by omega⟩
      rw [List.append_assoc, List.cons_append, (hread _ seen record _ hfirst).2, List.cons_append,
        hread' fuel _ _ rest (Nat.le_of_succ_le_succ hfuel) hfresh]
      rfl

/-! ## Objects -/

instance : Std.Symm (Entry.Apart (σ := σ)) where
  symm _ _ h := ⟨h.name_ne.symm, fun record => (h.comm record).symm⟩

/-- Entries that are apart store the same in any order. -/
theorem foldl_store_perm {given entries : List (Entry σ)} (h : given.Perm entries)
    (hapart : entries.Pairwise Entry.Apart) (record : σ) :
    given.foldl (fun record e => e.store record) record =
      entries.foldl (fun record e => e.store record) record := by
  refine h.foldl_eq' (fun x hx y hy record => ?_) record
  by_cases heq : x = y
  · rw [heq]
  · exact ((hapart.forall (h.mem_iff.1 hx) (h.mem_iff.1 hy) heq).comm record).symm

theorem readRecord_object (fields : List (RecordField σ)) (record : σ) (pieces : List Piece)
    (fault : Option Fault) (tokens : List Token) :
    readRecord fields record (.beginObject :: .string pieces fault :: tokens) =
      readMembers fields (tokens.length + 1 + 1) [] record (.string pieces fault :: tokens) :=
  rfl

/-- A text that writes entries of a record is read as what they store. -/
theorem Writes.read {fields : List (RecordField σ)} {names : List String}
    {entries : List (Entry σ)} (hcovers : Covers fields names entries) {text : List Char}
    (h : Writes names entries text) :
    ∃ tokens, Lexes text tokens ∧ ∀ record rest,
      readRecord fields record (tokens ++ rest) =
        .ok (entries.foldl (fun record e => e.store record) record, rest) := by
  obtain ⟨ms, given, hobject, hgives, hperm⟩ := h
  cases hobject with
  | empty isGap =>
    cases hgives with
    | nil =>
      obtain rfl := List.nil_perm.1 hperm
      exact ⟨_, isGap.lexes.enclosed mark_beginObject mark_endObject, fun _ _ => rfl⟩
  | members m ms =>
    cases hgives with
    | @cons _ first _ given hgive hgives =>
      have hmem : ∀ e, some e ∈ first :: given → e ∈ entries := fun e he =>
        hperm.mem_iff.1 (List.reduceOption_mem_iff.2 he)
      obtain ⟨pieces, tokens, hlexes, hlength, hread⟩ :=
        readMembers_given hcovers hgive hgives hmem
      have hnames : ((first :: given).reduceOption.map Entry.name).Nodup := by
        rw [(hperm.map Entry.name).nodup_iff]
        exact List.pairwise_map.2 (hcovers.apart.imp fun h => h.name_ne)
      refine ⟨_, hlexes.enclosed mark_beginObject mark_endObject, fun record rest => ?_⟩
      have hfresh : Fresh [] (first :: given) := ⟨hnames, fun e _ hmem => nomatch hmem⟩
      have hcount : ms.length ≤ (tokens ++ .endObject :: rest).length + 1 := by
        rw [List.length_append]
        omega
      have hmembers := hread _ [] record rest hcount hfresh
      rw [storedAll_eq, foldl_store_perm hperm hcovers.apart] at hmembers
      rw [List.cons_append, List.cons_append, List.cons_append, List.append_assoc,
        List.singleton_append, readRecord_object]
      exact hmembers

end Monitor68.Json
