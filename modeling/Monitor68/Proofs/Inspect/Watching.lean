import Mathlib.Data.List.Forall2
import Mathlib.Data.List.Nodup
import Monitor68.Inspect.WatchList
import Monitor68.Target.Simulator

/-!
# Ids of watched variables

An id is a handle: whoever watches an address gets one, and uses it later to
ask for the variable, to change it or to remove it.  That is sound since
the ids of a list always increase and stay below the next one, so that the
first variable with an id is the only one, and an id that was removed does
not come back.

`Request` is what can be asked of a list, and `through` is the list after a
history of requests.  `apply_cases` says what one request can do: it adds a
variable at the end, or takes some off, or changes some where they are.
`WellNumbered` is the invariant, which `WellNumbered.after` carries along a
history as long as the ids do not wrap around.
-/

namespace Monitor68.WatchList

/-- What can be asked of a list of watched variables.  To watch an address
without an encoding is to watch it as an unsigned byte.  The engine is an
argument of the requests that look at memory, since memory may change from
one request to the next. -/
inductive Request (ε : Type) where
  | add (address : UInt32) (name : Option String) (encoding : Encoding)
  | addSymbol (name : String) (address : UInt32)
  | remove (id : UInt32)
  | clear
  | setEncoding (id : UInt32) (encoding : Encoding)
  | evaluate (engine : ε)
  | refresh (engine : ε)

variable {ε : Type} [Engine ε]

/-- The list after a request. -/
def Request.apply (w : WatchList) : Request ε → WatchList
  | .add address name encoding => (w.add address name encoding).2
  | .addSymbol name address => (w.addSymbol name address).2
  | .remove id => (w.remove id).2
  | .clear => w.clear
  | .setEncoding id encoding => (w.setEncoding id encoding).2
  | .evaluate _ => w
  | .refresh engine => w.refresh engine

/-- The id that a request hands out, if it adds a variable. -/
def Request.issued {ε : Type} (w : WatchList) : Request ε → Option UInt32
  | .add address name encoding => some (w.add address name encoding).1
  | .addSymbol name address =>
    if w.watches.any (·.name == name) then none else some (w.addSymbol name address).1
  | .remove _ | .clear | .setEncoding _ _ | .evaluate _ | .refresh _ => none

/-- Whether a request takes variables off the list. -/
def Request.Removes {ε : Type} : Request ε → Prop
  | .remove _ | .clear => True
  | .add _ _ _ | .addSymbol _ _ | .setEncoding _ _ | .evaluate _ | .refresh _ => False

/-- The list after a history of requests. -/
def through (w : WatchList) (history : List (Request ε)) : WatchList :=
  history.foldl Request.apply w

/-- The ids that the additions of a history hand out, oldest first. -/
def issuedBy (w : WatchList) : List (Request ε) → List UInt32
  | [] => []
  | request :: rest => (request.issued w).toList ++ issuedBy (request.apply w) rest

/-! ## Changing one variable -/

section Change

variable {test : Watch → Bool} {change : Watch → Watch} {v : Watch} {front back : List Watch}

theorem find?_split (hfront : ∀ u ∈ front, test u = false) (hv : test v = true) :
    (front ++ v :: back).find? test = some v := by
  have hnone : front.find? test = none := List.find?_eq_none.2 fun u hu => by simp [hfront u hu]
  rw [List.find?_append, hnone, Option.none_or, List.find?_cons_of_pos hv]

theorem modifyFirst_split (hfront : ∀ u ∈ front, test u = false) (hv : test v = true) :
    modifyFirst test change (front ++ v :: back) = front ++ change v :: back := by
  induction front with
  | nil =>
    rw [List.nil_append, modifyFirst, if_pos hv]
    rfl
  | cons u front ih =>
    rw [List.forall_mem_cons] at hfront
    rw [List.cons_append, modifyFirst, if_neg (by simp [hfront.1]), ih hfront.2]
    rfl

/-- A change for which there is no variable changes nothing. -/
theorem modifyFirst_of_none {vs : List Watch} (h : ∀ v ∈ vs, test v = false) :
    modifyFirst test change vs = vs := by
  induction vs with
  | nil => rfl
  | cons v vs ih =>
    rw [List.forall_mem_cons] at h
    rw [modifyFirst, if_neg (by simp [h.1]), ih h.2]

/-- A variable that is not the one that is changed is found as before. -/
theorem find?_modifyFirst {sought : Watch → Bool} {vs : List Watch}
    (h : ∀ v, vs.find? test = some v → sought v = false ∧ sought (change v) = false) :
    (modifyFirst test change vs).find? sought = vs.find? sought := by
  induction vs with
  | nil => rfl
  | cons v vs ih =>
    rw [modifyFirst]
    by_cases hv : test v = true
    · obtain ⟨hbefore, hafter⟩ := h v (List.find?_cons_of_pos hv)
      rw [if_pos hv, List.find?_cons_of_neg (by simp [hafter]),
        List.find?_cons_of_neg (by simp [hbefore])]
    · rw [List.find?_cons_of_neg hv] at h
      rw [if_neg hv, List.find?_cons, List.find?_cons, ih h]

/-- The variables stay where they are. -/
theorem forall₂_modifyFirst {R : Watch → Watch → Prop} (hsame : ∀ v, R v v)
    (hchange : ∀ v, test v = true → R v (change v)) (vs : List Watch) :
    List.Forall₂ R vs (modifyFirst test change vs) := by
  induction vs with
  | nil => exact .nil
  | cons v vs ih =>
    rw [modifyFirst]
    split
    · rename_i hv
      exact .cons (hchange v hv) (List.forall₂_same.2 fun u _ => hsame u)
    · exact .cons (hsame v) ih

end Change

/-- A variable that moves forgets its value. -/
theorem relocate_eq (address : UInt32) (v : Watch) :
    relocate address v =
      { v with address, value := if v.address = address then v.value else "" } := by
  unfold relocate
  split
  · rename_i hsame
    rw [← hsame]
  · rfl

/-! ## What a request can do -/

/-- A request takes a variable to what becomes of it where it is. -/
inductive Follows : Request ε → Watch → Watch → Prop where
  | same (request : Request ε) (v : Watch) (h : ∀ engine, request ≠ .refresh engine) :
      Follows request v v
  | moved (v : Watch) (address : UInt32) (h : v.address ≠ address) :
      Follows (.addSymbol v.name address) v { v with address, value := "" }
  | recoded (v : Watch) (encoding : Encoding) :
      Follows (.setEncoding v.id encoding) v { v with encoding }
  | refreshed (engine : ε) (v : Watch) : Follows (.refresh engine) v (refreshed engine v)

/-- The variable that a request adds to a list. -/
structure Added (w : WatchList) (v : Watch) : Prop where
  id_eq : v.id = w.nextId
  name_ne : v.name ≠ ""
  value_eq : v.value = ""

/-- The variable that an addition makes. -/
def newWatch (w : WatchList) (address : UInt32) (name : Option String) (encoding : Encoding) :
    Watch where
  id := w.nextId
  address := address
  name := (name.filter (· ≠ "")).getD w.defaultName
  encoding := encoding

theorem add_eq (w : WatchList) (address : UInt32) (name : Option String) (encoding : Encoding) :
    w.add address name encoding =
      (w.nextId,
        { watches := w.watches ++ [w.newWatch address name encoding], nextId := w.nextId + 1 }) :=
  rfl

theorem newWatch_of_named {name : String} (h : name ≠ "") (w : WatchList) (address : UInt32)
    (encoding : Encoding) :
    w.newWatch address (some name) encoding = { id := w.nextId, address, name, encoding } := by
  rw [newWatch, Option.filter_some, if_pos (decide_eq_true h)]
  rfl

theorem added_newWatch (w : WatchList) (address : UInt32) (name : Option String)
    (encoding : Encoding) : Added w (w.newWatch address name encoding) := by
  refine ⟨rfl, ?_, rfl⟩
  unfold newWatch
  cases hfilter : name.filter (· ≠ "") with
  | none => simp [defaultName]
  | some given => simpa using (Option.filter_eq_some_iff.1 hfilter).2

/-- A symbol moves the first variable of its name, or else is added as an
unsigned byte. -/
theorem addSymbol_cases (w : WatchList) (name : String) (address : UInt32) :
    (∃ front v back, w.watches = front ++ v :: back ∧ v.name = name ∧
      (∀ u ∈ front, u.name ≠ name) ∧
      w.addSymbol name address =
        (v.id, { w with watches := front ++ relocate address v :: back })) ∨
    (∀ v ∈ w.watches, v.name ≠ name) ∧
      w.addSymbol name address = w.add address (some name) .unsignedByte := by
  unfold addSymbol
  cases hfind : w.watches.find? (·.name == name) with
  | none =>
    refine .inr ⟨fun v hv => ?_, rfl⟩
    simpa using List.find?_eq_none.1 hfind v hv
  | some v =>
    obtain ⟨hv, front, back, hsplit, hfront⟩ := List.find?_eq_some_iff_append.1 hfind
    have hfirst : ∀ u ∈ front, (u.name == name) = false := fun u hu => by
      simpa using hfront u hu
    refine .inl ⟨front, v, back, hsplit, by simpa using hv, fun u hu => by
      simpa using hfirst u hu, ?_⟩
    simp only [hsplit, modifyFirst_split hfirst hv]

/-- A request adds a variable behind all others, or it takes variables off, or
it leaves all of them where they are. -/
theorem apply_cases (w : WatchList) (request : Request ε) :
    (¬ request.Removes ∧ request.issued w = some w.nextId ∧ ∃ v, Added w v ∧
      request.apply w = { watches := w.watches ++ [v], nextId := w.nextId + 1 }) ∨
    request.issued w = none ∧ ∃ watches, request.apply w = { w with watches } ∧
      (request.Removes ∧ watches.Sublist w.watches ∨
        ¬ request.Removes ∧ List.Forall₂ (Follows request) w.watches watches) := by
  cases request with
  | add address name encoding =>
    exact .inl ⟨id, rfl, _, added_newWatch w address name encoding, rfl⟩
  | addSymbol name address =>
    simp only [Request.issued, Request.apply]
    rcases addSymbol_cases w name address with ⟨front, v, back, hsplit, rfl, -, h⟩ | ⟨hnone, h⟩
    · refine .inr ⟨if_pos (List.any_eq_true.2 ⟨v, by simp [hsplit], by simp⟩), _,
        congrArg Prod.snd h, .inr ⟨id, ?_⟩⟩
      have hsame : ∀ u, Follows (.addSymbol v.name address : Request ε) u u :=
        fun u => .same _ u nofun
      have hmove : Follows (.addSymbol v.name address : Request ε) v (relocate address v) := by
        unfold relocate
        split
        · exact hsame v
        · rename_i hne
          exact .moved v address hne
      rw [hsplit]
      exact List.rel_append (List.forall₂_same.2 fun u _ => hsame u)
        (.cons hmove (List.forall₂_same.2 fun u _ => hsame u))
    · have hany : w.watches.any (·.name == name) = false :=
        List.any_eq_false.2 fun v hv => by simpa using hnone v hv
      rw [h, add_eq, hany]
      exact .inl ⟨id, rfl, _, added_newWatch w address (some name) .unsignedByte, rfl⟩
  | remove id => exact .inr ⟨rfl, _, rfl, .inl ⟨trivial, List.filter_sublist⟩⟩
  | clear => exact .inr ⟨rfl, _, rfl, .inl ⟨trivial, List.nil_sublist _⟩⟩
  | setEncoding id encoding =>
    refine .inr ⟨rfl, _, rfl, .inr ⟨False.elim, ?_⟩⟩
    refine forall₂_modifyFirst (fun v => .same _ v nofun) (fun v hv => ?_) _
    obtain rfl : v.id = id := by simpa using hv
    exact .recoded v encoding
  | evaluate engine =>
    exact .inr ⟨rfl, _, rfl, .inr ⟨id, List.forall₂_same.2 fun v _ => .same _ v nofun⟩⟩
  | refresh engine =>
    refine .inr ⟨rfl, _, rfl, .inr ⟨id, ?_⟩⟩
    exact List.forall₂_map_right_iff.2 (List.forall₂_same.2 fun v _ => .refreshed engine v)

/-! ## The invariant -/

/-- The ids of a list increase and stay below the next one, and every variable
has a name. -/
structure WellNumbered (w : WatchList) : Prop where
  increasing : w.watches.Pairwise fun u v => u.id < v.id
  below : ∀ v ∈ w.watches, v.id < w.nextId
  named : ∀ v ∈ w.watches, v.name ≠ ""

/-- The ids and names of the variables, in order. -/
def labels (w : WatchList) : List (UInt32 × String) := w.watches.map fun v => (v.id, v.name)

/-- Variables that stay where they are keep their ids and names. -/
theorem map_label_of_follows {request : Request ε} {us vs : List Watch}
    (h : List.Forall₂ (Follows request) us vs) :
    vs.map (fun v => (v.id, v.name)) = us.map fun v => (v.id, v.name) := by
  induction h with
  | nil => rfl
  | cons hfollows _ ih =>
    rw [List.map_cons, List.map_cons, ih]
    cases hfollows <;> rfl

/-- The variables keep their places, their ids and their names in everything
that does not remove any. -/
theorem labels_isPrefix (w : WatchList) {request : Request ε} (h : ¬ request.Removes) :
    w.labels <+: (request.apply w).labels := by
  rcases apply_cases w request with
    ⟨-, -, v, -, happly⟩ | ⟨-, watches, happly, ⟨hremoves, -⟩ | ⟨-, hfollows⟩⟩
  · rw [happly, labels, labels, List.map_append]
    exact List.prefix_append _ _
  · exact absurd hremoves h
  · rw [happly]
    exact ⟨[], (List.append_nil _).trans (map_label_of_follows hfollows).symm⟩

namespace WellNumbered

variable {w w' : WatchList}

theorem empty : WellNumbered WatchList.empty where
  increasing := .nil
  below _ hv := nomatch hv
  named _ hv := nomatch hv

/-- The invariant is about ids and names only. -/
theorem of_labels (h : WellNumbered w) (hlabels : w'.labels = w.labels)
    (hnext : w'.nextId = w.nextId) : WellNumbered w' := by
  have hmem : ∀ v ∈ w'.watches, ∃ u ∈ w.watches, u.id = v.id ∧ u.name = v.name := by
    intro v hv
    have hlabel : (v.id, v.name) ∈ w.labels := hlabels ▸ List.mem_map_of_mem hv
    obtain ⟨u, hu, heq⟩ := List.mem_map.1 hlabel
    exact ⟨u, hu, congrArg Prod.fst heq, congrArg Prod.snd heq⟩
  refine ⟨?_, fun v hv => ?_, fun v hv => ?_⟩
  · have hpairwise : w.labels.Pairwise fun a b => a.1 < b.1 := List.pairwise_map.2 h.increasing
    rw [← hlabels, labels, List.pairwise_map] at hpairwise
    exact hpairwise
  · obtain ⟨u, hu, hid, -⟩ := hmem v hv
    rw [← hid, hnext]
    exact h.below u hu
  · obtain ⟨u, hu, -, hname⟩ := hmem v hv
    rw [← hname]
    exact h.named u hu

theorem of_sublist (h : WellNumbered w) (hsub : w'.watches.Sublist w.watches)
    (hnext : w'.nextId = w.nextId) : WellNumbered w' where
  increasing := h.increasing.sublist hsub
  below v hv := by
    rw [hnext]
    exact h.below v (hsub.mem hv)
  named v hv := h.named v (hsub.mem hv)

/-- A new variable goes behind all others, unless the ids wrap around. -/
theorem concat (h : WellNumbered w) (hroom : w.nextId.toNat + 1 < UInt32.size) {v : Watch}
    (hv : Added w v) :
    WellNumbered { watches := w.watches ++ [v], nextId := w.nextId + 1 } := by
  have hlt : w.nextId < w.nextId + 1 := by
    rw [UInt32.lt_iff_toNat_lt, UInt32.toNat_add]
    exact Nat.lt_of_lt_of_eq (Nat.lt_succ_self _) (Nat.mod_eq_of_lt hroom).symm
  refine ⟨?_, fun u hu => ?_, fun u hu => ?_⟩
  · refine List.pairwise_append.2 ⟨h.increasing, List.pairwise_singleton _ _, ?_⟩
    intro u hu v' hv'
    rw [List.mem_singleton.1 hv', hv.id_eq]
    exact h.below u hu
  · obtain hu | hu := List.mem_append.1 hu
    · exact UInt32.lt_trans (h.below u hu) hlt
    · rw [List.mem_singleton.1 hu, hv.id_eq]
      exact hlt
  · obtain hu | hu := List.mem_append.1 hu
    · exact h.named u hu
    · rw [List.mem_singleton.1 hu]
      exact hv.name_ne

/-- The step lemma. -/
theorem apply (h : WellNumbered w) (request : Request ε)
    (hroom : w.nextId.toNat + (request.issued w).toList.length < UInt32.size) :
    WellNumbered (request.apply w) := by
  rcases apply_cases w request with
    ⟨-, hissued, v, hv, happly⟩ | ⟨-, watches, happly, ⟨-, hsub⟩ | ⟨-, hfollows⟩⟩
  · rw [hissued] at hroom
    rw [happly]
    exact h.concat hroom hv
  · rw [happly]
    exact h.of_sublist hsub rfl
  · rw [happly]
    exact h.of_labels (map_label_of_follows hfollows) rfl

/-- The run lemma.  The ids handed out on the way are consecutive numbers from
the next id on. -/
theorem after (h : WellNumbered w) (history : List (Request ε))
    (hroom : w.nextId.toNat + (issuedBy w history).length < UInt32.size) :
    WellNumbered (w.through history) ∧
      (w.through history).nextId.toNat = w.nextId.toNat + (issuedBy w history).length ∧
      (issuedBy w history).map UInt32.toNat =
        List.range' w.nextId.toNat (issuedBy w history).length := by
  induction history generalizing w with
  | nil => exact ⟨h, rfl, rfl⟩
  | cons request rest ih =>
    rw [issuedBy, List.length_append] at hroom
    have hstep : WellNumbered (request.apply w) := h.apply request (by omega)
    have hnext : (request.apply w).nextId.toNat =
        w.nextId.toNat + (request.issued w).toList.length ∧
        (request.issued w).toList.map UInt32.toNat =
          List.range' w.nextId.toNat (request.issued w).toList.length := by
      rcases apply_cases w request with ⟨-, hissued, v, -, happly⟩ | ⟨hissued, watches, happly, -⟩
      · rw [happly, hissued]
        rw [hissued] at hroom
        refine ⟨?_, rfl⟩
        have hlt : w.nextId.toNat + 1 < UInt32.size := by
          simp only [Option.toList_some, List.length_singleton] at hroom
          omega
        rw [UInt32.toNat_add]
        exact Nat.mod_eq_of_lt hlt
      · rw [happly, hissued]
        exact ⟨rfl, rfl⟩
    obtain ⟨hnumbered, hlast, hids⟩ := ih hstep (by rw [hnext.1]; omega)
    refine ⟨hnumbered, ?_, ?_⟩
    · show ((request.apply w).through rest).nextId.toNat = _
      rw [hlast, hnext.1, issuedBy, List.length_append, Nat.add_assoc]
    · rw [issuedBy, List.map_append, List.length_append, hids, hnext.2, hnext.1,
        List.range'_append_1]

/-- In a list that is cut at a variable, no other variable has its id. -/
theorem id_ne (h : WellNumbered w) {front back : List Watch} {v : Watch}
    (hsplit : w.watches = front ++ v :: back) :
    (∀ u ∈ front, u.id ≠ v.id) ∧ ∀ u ∈ back, u.id ≠ v.id := by
  have hincreasing := h.increasing
  rw [hsplit, List.pairwise_append, List.pairwise_cons] at hincreasing
  obtain ⟨-, ⟨hback, -⟩, hfront⟩ := hincreasing
  exact ⟨fun u hu => UInt32.ne_of_lt (hfront u hu v List.mem_cons_self),
    fun u hu => (UInt32.ne_of_lt (hback u hu)).symm⟩

end WellNumbered

/-! ## Handles -/

/-- What ids and names are good for.  Each field is about a list that is cut at
a variable, or about an id or a name that no variable has. -/
structure Handles (w : WatchList) : Prop where
  add_new : ∀ (address : UInt32) (name : Option String) (encoding : Encoding),
    ∃ added, added.id = w.nextId ∧ added.address = address ∧
      (∀ given, name = some given → given ≠ "" → added.name = given) ∧
      added.encoding = encoding ∧ added.value = "" ∧
      w.add address name encoding =
        (added.id, { watches := w.watches ++ [added], nextId := w.nextId + 1 })
  get_known : ∀ {front v back}, w.watches = front ++ v :: back → w.get? v.id = some v
  get_unknown : ∀ {id}, (∀ v ∈ w.watches, v.id ≠ id) → w.get? id = none
  remove_known : ∀ {front v back}, w.watches = front ++ v :: back →
    w.remove v.id = (true, { w with watches := front ++ back })
  remove_unknown : ∀ {id}, (∀ v ∈ w.watches, v.id ≠ id) → w.remove id = (false, w)
  recode_known : ∀ {front v back} (encoding : Encoding), w.watches = front ++ v :: back →
    w.setEncoding v.id encoding =
      (true, { w with watches := front ++ { v with encoding } :: back })
  recode_unknown : ∀ {id} (encoding : Encoding), (∀ v ∈ w.watches, v.id ≠ id) →
    w.setEncoding id encoding = (false, w)
  symbol_known : ∀ {front v back} (address : UInt32), w.watches = front ++ v :: back →
    (∀ u ∈ front, u.name ≠ v.name) →
    w.addSymbol v.name address = (v.id, { w with
      watches := front ++
        { v with address, value := if v.address = address then v.value else "" } :: back })
  symbol_unknown : ∀ {name} (address : UInt32), (∀ v ∈ w.watches, v.name ≠ name) →
    w.addSymbol name address = w.add address (some name) .unsignedByte

theorem WellNumbered.handles {w : WatchList} (h : WellNumbered w) : w.Handles where
  add_new := by
    intro address name encoding
    refine ⟨w.newWatch address name encoding, rfl, rfl, fun given hname hne => ?_, rfl, rfl,
      add_eq w address name encoding⟩
    rw [hname, newWatch_of_named hne]
  get_known := by
    intro front v back hsplit
    obtain ⟨hfront, -⟩ := h.id_ne hsplit
    rw [get?, hsplit]
    exact find?_split (fun u hu => by simpa using hfront u hu) (beq_self_eq_true _)
  get_unknown := by
    intro id hid
    exact List.find?_eq_none.2 fun v hv => by simpa using hid v hv
  remove_known := by
    intro front v back hsplit
    obtain ⟨hfront, hback⟩ := h.id_ne hsplit
    have hkeep : ∀ us : List Watch, (∀ u ∈ us, u.id ≠ v.id) → us.filter (·.id != v.id) = us :=
      fun us hus => List.filter_eq_self.2 fun u hu => by simpa using hus u hu
    rw [remove, hsplit, List.filter_append, List.filter_cons_of_neg (by simp), hkeep front hfront,
      hkeep back hback]
    simp
  remove_unknown := by
    intro id hid
    have hkeep : w.watches.filter (·.id != id) = w.watches :=
      List.filter_eq_self.2 fun u hu => by simpa using hid u hu
    rw [remove, hkeep, List.any_eq_false.2 fun v hv => by simpa using hid v hv]
  recode_known := by
    intro front v back encoding hsplit
    obtain ⟨hfront, -⟩ := h.id_ne hsplit
    have hfirst : ∀ u ∈ front, (u.id == v.id) = false := fun u hu => by simpa using hfront u hu
    rw [setEncoding, hsplit, modifyFirst_split hfirst (beq_self_eq_true _)]
    simp
  recode_unknown := by
    intro id encoding hid
    rw [setEncoding, modifyFirst_of_none fun u hu => by simpa using hid u hu,
      List.any_eq_false.2 fun v hv => by simpa using hid v hv]
  symbol_known := by
    intro front v back address hsplit hfirst
    have hfront : ∀ u ∈ front, (u.name == v.name) = false := fun u hu => by
      simpa using hfirst u hu
    rw [addSymbol, hsplit, find?_split hfront (beq_self_eq_true _)]
    simp only [modifyFirst_split hfront (beq_self_eq_true _), relocate_eq]
  symbol_unknown := by
    intro name address hname
    have hfind : w.watches.find? (·.name == name) = none :=
      List.find?_eq_none.2 fun v hv => by simpa using hname v hv
    rw [addSymbol, hfind]

/-! ## Any history -/

/-- After any history that adds fewer than 2^32 variables the ids increase, stay
below the next one and were all handed out once only, removed ones among
them; every variable has a name; ids and names are good for what they
stand for; and nothing but a removal takes a variable off its place or
changes its id. -/
theorem ids_identify (history : List (Request ε))
    (hroom : (issuedBy WatchList.empty history).length < UInt32.size) :
    let w := WatchList.empty.through history
    let issued := issuedBy WatchList.empty history
    w.WellNumbered ∧ issued.Nodup ∧ (∀ id ∈ issued, id < w.nextId) ∧ w.Handles ∧
      ∀ request : Request ε, ¬ request.Removes → w.labels <+: (request.apply w).labels := by
  intro w issued
  have hstart : WatchList.empty.nextId.toNat = 0 := rfl
  obtain ⟨hnumbered, hnext, hids⟩ := WellNumbered.empty.after history
    (by rw [hstart, Nat.zero_add]; exact hroom)
  rw [hstart, Nat.zero_add] at hnext
  rw [hstart] at hids
  refine ⟨hnumbered, ?_, fun id hid => ?_, hnumbered.handles, fun request => labels_isPrefix w⟩
  · have hdistinct : (issued.map UInt32.toNat).Nodup := by
      rw [hids]
      exact List.nodup_range' 1
    exact hdistinct.of_map UInt32.toNat
  · have hmem : id.toNat ∈ issued.map UInt32.toNat := List.mem_map_of_mem hid
    rw [hids, List.mem_range'_1] at hmem
    rw [UInt32.lt_iff_toNat_lt, hnext]
    omega

/-- Two variables, of which the second is imported again; then one is removed,
all are cleared, and two are added. -/
def refilled : List (Request Simulator) :=
  [.add 0x100 none .unsignedByte, .add 0x104 (some "counter") .unsignedByte,
   .addSymbol "counter" 0x200, .remove 0, .clear, .add 0x108 none .character,
   .addSymbol "total" 0x300]

theorem ids_of_refilled :
    (issuedBy WatchList.empty refilled).length < UInt32.size ∧
    issuedBy WatchList.empty refilled = [0, 1, 2, 3] ∧
    (issuedBy WatchList.empty refilled).Nodup ∧
    (WatchList.empty.through refilled).WellNumbered ∧
    (WatchList.empty.through refilled).get? 1 = none ∧
    (WatchList.empty.through refilled).labels = [(2, "userdef_0"), (3, "total")] := by
  have hroom : (issuedBy WatchList.empty refilled).length < UInt32.size := by decide +kernel
  obtain ⟨hnumbered, hdistinct, -, hhandles, -⟩ := ids_identify refilled hroom
  refine ⟨hroom, by decide +kernel, hdistinct, hnumbered, hhandles.get_unknown ?_,
    by decide +kernel⟩
  decide +kernel

end Monitor68.WatchList
