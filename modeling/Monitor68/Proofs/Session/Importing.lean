import Mathlib.Data.List.Nodup
import Monitor68.Proofs.Inspect.Watching
import Monitor68.Proofs.Listing.Symbols
import Monitor68.Session.Program

/-!
# Importing the symbols of a listing

To import a table of symbols is to watch one symbol after the other, each time
looking for its name in a list that may have grown since.  All in all that is
to go through the variables once, where the first of each name moves to its
symbol, and to put the symbols nobody carries behind them, in their order
(`addSymbols_eq_imported`).

A symbol is at home in a list if the first variable of its name has its
address.  Watching a symbol at home changes nothing, and an import leaves all
symbols of its table at home; so a second import of the same table changes
nothing.
-/

namespace Monitor68

namespace WatchList

open Monitor68.Text

/-! ## The list after an import -/

/-- What becomes of a variable behind others with the names `seen`. -/
def place (table : List (String × UInt32)) (seen : List String) (v : Watch) : Watch :=
  if v.name ∈ seen then v
  else
    match table.lookup v.name with
    | some address => relocate address v
    | none => v

/-- What becomes of variables behind others with the names `seen`. -/
def placed (table : List (String × UInt32)) : (seen : List String) → List Watch → List Watch
  | _, [] => []
  | seen, v :: vs => place table seen v :: placed table (v.name :: seen) vs

/-- Symbols as variables with ids from `id` on. -/
def newcomers : (id : UInt32) → List (String × UInt32) → List Watch
  | _, [] => []
  | id, (name, address) :: rest =>
    { id, address, name, encoding := .unsignedByte } :: newcomers (id + 1) rest

def names (w : WatchList) : List String := w.watches.map (·.name)

/-- The symbols of a table whose names no variable carries. -/
def unclaimed (table : List (String × UInt32)) (w : WatchList) : List (String × UInt32) :=
  table.filter (·.1 ∉ w.names)

/-- The list with a table of symbols in it. -/
def imported (table : List (String × UInt32)) (w : WatchList) : WatchList where
  watches := placed table [] w.watches ++ newcomers w.nextId (unclaimed table w)
  nextId := w.nextId + UInt32.ofNat (unclaimed table w).length

section Table

variable {table : List (String × UInt32)} {symbol : String × UInt32} {w : WatchList}
  {seen : List String} {v : Watch} {vs front back : List Watch}

theorem lookup_eq_none (h : v.name ∉ table.map Prod.fst) : table.lookup v.name = none := by
  refine List.lookup_eq_none_iff.2 fun other hother => ?_
  refine bne_iff_ne.2 fun heq => h ?_
  exact heq ▸ List.mem_map_of_mem hother

theorem lookup_eq_some {address : UInt32} (hdistinct : (table.map Prod.fst).Nodup)
    (h : (v.name, address) ∈ table) : table.lookup v.name = some address := by
  obtain ⟨before, after, rfl⟩ := List.append_of_mem h
  refine List.lookup_eq_some_iff.2 ⟨before, after, rfl, fun other hother => ?_⟩
  rw [List.map_append, List.map_cons, List.nodup_append] at hdistinct
  exact bne_iff_ne.2 fun heq =>
    hdistinct.2.2 _ (List.mem_map_of_mem hother) v.name List.mem_cons_self heq.symm

/-! ## One symbol more -/

theorem place_of_not_mem (h : v.name ∉ table.map Prod.fst) : place table seen v = v := by
  rw [place, lookup_eq_none h]
  exact ite_self v

/-- A symbol has no part in a variable of another name, nor in one behind the
first of its name. -/
theorem place_cons (h : v.name = symbol.1 → symbol.1 ∈ seen) :
    place (symbol :: table) seen v = place table seen v := by
  by_cases hname : v.name = symbol.1
  · rw [place, place, if_pos (hname ▸ h hname), if_pos (hname ▸ h hname)]
  · rw [place, place, List.lookup_cons, beq_false_of_ne hname]

theorem placed_cons (h : ∀ v ∈ vs, v.name = symbol.1 → symbol.1 ∈ seen) :
    placed (symbol :: table) seen vs = placed table seen vs := by
  induction vs generalizing seen with
  | nil => rfl
  | cons v vs ih =>
    rw [List.forall_mem_cons] at h
    rw [placed, placed, place_cons h.1,
      ih fun u hu hname => List.mem_cons_of_mem _ (h.2 u hu hname)]

/-- A symbol moves the first variable of its name. -/
theorem placed_cons_split (hnew : symbol.1 ∉ table.map Prod.fst) (hseen : symbol.1 ∉ seen)
    (hfront : ∀ u ∈ front, u.name ≠ symbol.1) (hv : v.name = symbol.1) :
    placed (symbol :: table) seen (front ++ v :: back) =
      placed table seen (front ++ relocate symbol.2 v :: back) := by
  induction front generalizing seen with
  | nil =>
    have hname : (relocate symbol.2 v).name = symbol.1 := by rw [relocate_eq]; exact hv
    have hhead : place (symbol :: table) seen v = relocate symbol.2 v := by
      rw [place, if_neg (hv ▸ hseen), List.lookup_cons, hv, beq_self_eq_true]
    rw [List.nil_append, List.nil_append, placed, placed, hhead, hv,
      place_of_not_mem (hname ▸ hnew), hname, placed_cons fun _ _ _ => List.mem_cons_self]
  | cons u front ih =>
    rw [List.forall_mem_cons] at hfront
    have hseen' : symbol.1 ∉ u.name :: seen :=
      List.not_mem_cons_of_ne_of_not_mem (Ne.symm hfront.1) hseen
    rw [List.cons_append, List.cons_append, placed, placed,
      place_cons fun hname => absurd hname hfront.1, ih hseen' hfront.2]

theorem placed_concat (h : v.name ∉ table.map Prod.fst) :
    placed table seen (vs ++ [v]) = placed table seen vs ++ [v] := by
  induction vs generalizing seen with
  | nil => simp only [List.nil_append, placed, place_of_not_mem h]
  | cons u vs ih => rw [List.cons_append, placed, ih, placed, List.cons_append]

theorem mem_names_of_split (hsplit : w.watches = front ++ v :: back) : v.name ∈ w.names := by
  rw [names, hsplit]
  exact List.mem_map_of_mem (by simp)

theorem not_mem_names {name : String} (hnone : ∀ v ∈ w.watches, v.name ≠ name) :
    name ∉ w.names := by
  intro hmem
  obtain ⟨v, hv, heq⟩ := List.mem_map.1 hmem
  exact hnone v hv heq

theorem names_relocate (hsplit : w.watches = front ++ v :: back) (address : UInt32) :
    names { w with watches := front ++ relocate address v :: back } = w.names := by
  simp only [names, hsplit, List.map_append, List.map_cons, relocate_eq]

theorem unclaimed_congr {w w' : WatchList} (h : w'.names = w.names) :
    unclaimed table w' = unclaimed table w := by
  rw [unclaimed, unclaimed, h]

/-- To move a variable to its symbol and import the others is to import all. -/
theorem imported_moved (hnew : symbol.1 ∉ table.map Prod.fst)
    (hsplit : w.watches = front ++ v :: back) (hfront : ∀ u ∈ front, u.name ≠ symbol.1)
    (hv : v.name = symbol.1) :
    imported table { w with watches := front ++ relocate symbol.2 v :: back } =
      imported (symbol :: table) w := by
  have hclaimed : symbol.1 ∈ w.names := hv ▸ mem_names_of_split hsplit
  have hunclaimed : unclaimed (symbol :: table) w = unclaimed table w :=
    List.filter_cons_of_neg (by simpa using hclaimed)
  simp only [imported, unclaimed_congr (names_relocate hsplit symbol.2), hunclaimed, hsplit,
    placed_cons_split hnew List.not_mem_nil hfront hv]

/-- To add a variable for a symbol and import the others is to import all. -/
theorem imported_added (hnew : symbol.1 ∉ table.map Prod.fst)
    (hnone : ∀ v ∈ w.watches, v.name ≠ symbol.1) :
    imported table
      { watches := w.watches ++
          [{ id := w.nextId, address := symbol.2, name := symbol.1, encoding := .unsignedByte }]
        nextId := w.nextId + 1 } =
      imported (symbol :: table) w := by
  let added : Watch :=
    { id := w.nextId, address := symbol.2, name := symbol.1, encoding := .unsignedByte }
  have hunclaimed : unclaimed (symbol :: table) w = symbol :: unclaimed table w :=
    List.filter_cons_of_pos (decide_eq_true (not_mem_names hnone))
  have hothers : unclaimed table { watches := w.watches ++ [added], nextId := w.nextId + 1 } =
      unclaimed table w := by
    refine List.filter_congr fun other hother => ?_
    have hne : other.1 ≠ symbol.1 := fun heq => hnew (heq ▸ List.mem_map_of_mem hother)
    simp [names, added, hne]
  have hid : w.nextId + 1 + UInt32.ofNat (unclaimed table w).length =
      w.nextId + UInt32.ofNat (symbol :: unclaimed table w).length := by
    rw [List.length_cons, UInt32.ofNat_add, UInt32.add_comm (UInt32.ofNat _) (UInt32.ofNat 1),
      UInt32.add_assoc]
    rfl
  have hplaced : placed table [] (w.watches ++ [added]) =
      placed (symbol :: table) [] w.watches ++ [added] := by
    rw [placed_concat hnew, placed_cons fun v hv hname => absurd hname (hnone v hv)]
  simp only [imported, hothers, hplaced, hunclaimed, hid, added, newcomers,
    List.append_assoc, List.singleton_append]

/-- The step lemma. -/
theorem imported_addSymbol (hnamed : symbol.1 ≠ "") (hnew : symbol.1 ∉ table.map Prod.fst)
    (w : WatchList) :
    imported table (w.addSymbol symbol.1 symbol.2).2 = imported (symbol :: table) w := by
  rcases addSymbol_cases w symbol.1 symbol.2 with
    ⟨front, v, back, hsplit, hv, hfront, h⟩ | ⟨hnone, h⟩
  · rw [h]
    exact imported_moved hnew hsplit hfront hv
  · rw [h, add_eq, newWatch_of_named hnamed]
    exact imported_added hnew hnone

theorem imported_nil (w : WatchList) : imported [] w = w := by
  have hplaced : ∀ seen vs, placed [] seen vs = vs := by
    intro seen vs
    induction vs generalizing seen with
    | nil => rfl
    | cons v vs ih => rw [placed, place_of_not_mem List.not_mem_nil, ih]
  rw [imported, hplaced]
  simp [unclaimed, newcomers]

theorem addSymbols_cons (symbol : String × UInt32) (table : List (String × UInt32))
    (w : WatchList) :
    w.addSymbols (symbol :: table) = (w.addSymbol symbol.1 symbol.2).2.addSymbols table := rfl

/-- The run lemma. -/
theorem addSymbols_eq_imported (hnamed : ∀ symbol ∈ table, symbol.1 ≠ "")
    (hdistinct : (table.map Prod.fst).Nodup) (w : WatchList) :
    w.addSymbols table = imported table w := by
  induction table generalizing w with
  | nil => exact (imported_nil w).symm
  | cons symbol table ih =>
    rw [List.forall_mem_cons] at hnamed
    rw [List.map_cons, List.nodup_cons] at hdistinct
    rw [addSymbols_cons, ih hnamed.2 hdistinct.2, imported_addSymbol hnamed.1 hdistinct.1]

end Table

/-! ## Symbols at home -/

/-- The first variable of a symbol's name has its address. -/
def AtHome (w : WatchList) (symbol : String × UInt32) : Prop :=
  ∃ v, w.watches.find? (·.name == symbol.1) = some v ∧ v.address = symbol.2

section AtHome

variable {table : List (String × UInt32)} {symbol other : String × UInt32} {w : WatchList}

theorem AtHome.watch (hnamed : symbol.1 ≠ "") (w : WatchList) :
    (w.addSymbol symbol.1 symbol.2).2.AtHome symbol := by
  rcases addSymbol_cases w symbol.1 symbol.2 with
    ⟨front, v, back, hsplit, hv, hfront, h⟩ | ⟨hnone, h⟩
  · have hfirst : ∀ u ∈ front, (u.name == symbol.1) = false := fun u hu =>
      beq_false_of_ne (hfront u hu)
    rw [h, relocate_eq]
    exact ⟨_, find?_split hfirst (by simpa using hv), rfl⟩
  · have hfirst : ∀ u ∈ w.watches, (u.name == symbol.1) = false := fun u hu =>
      beq_false_of_ne (hnone u hu)
    rw [h, add_eq, newWatch_of_named hnamed]
    exact ⟨_, find?_split hfirst (beq_self_eq_true _), rfl⟩

/-- A symbol stays at home when another one is watched. -/
theorem AtHome.watch_other (h : w.AtHome other) (hne : other.1 ≠ symbol.1) :
    (w.addSymbol symbol.1 symbol.2).2.AtHome other := by
  obtain ⟨v, hv, haddress⟩ := h
  refine ⟨v, ?_, haddress⟩
  rw [addSymbol]
  cases hfind : w.watches.find? (·.name == symbol.1) with
  | none => rw [add_eq, List.find?_append, hv, Option.some_or]
  | some u =>
    refine (find?_modifyFirst fun u' hu' => ?_).trans hv
    have hname : u'.name = symbol.1 := by simpa using List.find?_some hu'
    rw [relocate_eq, hname]
    exact ⟨beq_false_of_ne hne.symm, beq_false_of_ne hne.symm⟩

/-- To watch a symbol at home changes nothing. -/
theorem addSymbol_of_atHome (h : w.AtHome symbol) : (w.addSymbol symbol.1 symbol.2).2 = w := by
  obtain ⟨v, hv, haddress⟩ := h
  obtain ⟨hname, front, back, hsplit, hfront⟩ := List.find?_eq_some_iff_append.1 hv
  have hfirst : ∀ u ∈ front, (u.name == symbol.1) = false := fun u hu => by simpa using hfront u hu
  have hsame : relocate symbol.2 v = v := if_pos haddress
  rw [addSymbol, hv]
  simp only [hsplit, modifyFirst_split hfirst hname, hsame]
  rw [← hsplit]

theorem AtHome.import_others (h : w.AtHome other) (hne : other.1 ∉ table.map Prod.fst) :
    (w.addSymbols table).AtHome other := by
  induction table generalizing w with
  | nil => exact h
  | cons symbol table ih =>
    rw [List.map_cons, List.mem_cons, not_or] at hne
    exact ih (h.watch_other hne.1) hne.2

/-- An import leaves all symbols at home. -/
theorem atHome_addSymbols (hnamed : ∀ symbol ∈ table, symbol.1 ≠ "")
    (hdistinct : (table.map Prod.fst).Nodup) (w : WatchList) :
    ∀ symbol ∈ table, (w.addSymbols table).AtHome symbol := by
  induction table generalizing w with
  | nil => exact fun symbol hsymbol => nomatch hsymbol
  | cons first table ih =>
    rw [List.forall_mem_cons] at hnamed
    rw [List.map_cons, List.nodup_cons] at hdistinct
    exact List.forall_mem_cons.2 ⟨(AtHome.watch hnamed.1 w).import_others hdistinct.1,
      ih hnamed.2 hdistinct.2 _⟩

/-- To import symbols that are all at home changes nothing. -/
theorem addSymbols_of_atHome (h : ∀ symbol ∈ table, w.AtHome symbol) : w.addSymbols table = w := by
  induction table with
  | nil => rfl
  | cons symbol table ih =>
    rw [List.forall_mem_cons] at h
    rw [addSymbols_cons, addSymbol_of_atHome h.1, ih h.2]

end AtHome

/-! ## How many carry a name -/

/-- The number of variables of a name. -/
def carriers (w : WatchList) (name : String) : Nat := w.names.count name

theorem carriers_addSymbol {symbol : String × UInt32} (hnamed : symbol.1 ≠ "") (w : WatchList)
    (name : String) :
    (w.addSymbol symbol.1 symbol.2).2.carriers name =
      if name = symbol.1 then max 1 (w.carriers name) else w.carriers name := by
  rcases addSymbol_cases w symbol.1 symbol.2 with
    ⟨front, v, back, hsplit, hv, hfront, h⟩ | ⟨hnone, h⟩
  · have hcarried : symbol.1 ∈ w.names := hv ▸ mem_names_of_split hsplit
    rw [h, carriers, carriers, names_relocate hsplit]
    split
    · rename_i heq
      rw [heq, Nat.max_eq_right (List.count_pos_iff.2 hcarried)]
    · rfl
  · have hnames : (w.addSymbol symbol.1 symbol.2).2.names = w.names ++ [symbol.1] := by
      rw [h, add_eq, newWatch_of_named hnamed, names, List.map_append]
      rfl
    rw [carriers, carriers, hnames, List.count_append]
    split
    · rename_i heq
      rw [heq, List.count_eq_zero_of_not_mem (not_mem_names hnone)]
      simp
    · rename_i hne
      rw [List.count_singleton, beq_false_of_ne (Ne.symm hne)]
      rfl

/-- An import adds one variable for each name of its table that nobody carries. -/
theorem carriers_addSymbols {table : List (String × UInt32)}
    (hnamed : ∀ symbol ∈ table, symbol.1 ≠ "") (w : WatchList) (name : String) :
    (w.addSymbols table).carriers name =
      if name ∈ table.map Prod.fst then max 1 (w.carriers name) else w.carriers name := by
  induction table generalizing w with
  | nil => rfl
  | cons symbol table ih =>
    rw [List.forall_mem_cons] at hnamed
    have htwice : ∀ n, max 1 (max 1 n) = max 1 n := fun n => by omega
    rw [addSymbols_cons, ih hnamed.2, carriers_addSymbol hnamed.1]
    simp only [List.map_cons, List.mem_cons]
    by_cases hfirst : name = symbol.1
    · simp only [hfirst, true_or, if_true, htwice, ite_self]
    · simp only [hfirst, false_or, if_false]

/-! ## What an import does to each variable -/

/-- A list, and the list after the import of a table.  Each field is about a list
that is cut at a variable, or about the variables behind the old ones. -/
structure Merged (table : List (String × UInt32)) (w w' : WatchList) : Prop where
  first : ∀ {front v back address}, w.watches = front ++ v :: back →
    (∀ u ∈ front, u.name ≠ v.name) → (v.name, address) ∈ table →
    w'.watches[front.length]? =
      some { v with address, value := if v.address = address then v.value else "" }
  other : ∀ {front v back}, w.watches = front ++ v :: back →
    (∃ u ∈ front, u.name = v.name) ∨ (∀ address, (v.name, address) ∉ table) →
    w'.watches[front.length]? = some v
  added : w'.watches.drop w.watches.length = newcomers w.nextId (unclaimed table w)
  ascending : (w'.watches.drop w.watches.length).Pairwise fun u v =>
    encodeUtf8 u.name.toList < encodeUtf8 v.name.toList
  nextId_eq : w'.nextId = w.nextId + UInt32.ofNat (unclaimed table w).length

section Merged

variable {table : List (String × UInt32)} {w : WatchList} {v : Watch} {front back : List Watch}

theorem length_placed (table : List (String × UInt32)) (seen : List String) (vs : List Watch) :
    (placed table seen vs).length = vs.length := by
  induction vs generalizing seen with
  | nil => rfl
  | cons v vs ih => rw [placed, List.length_cons, List.length_cons, ih]

theorem placed_append (table : List (String × UInt32)) (seen : List String)
    (front vs : List Watch) :
    placed table seen (front ++ vs) =
      placed table seen front ++ placed table ((front.map (·.name)).reverse ++ seen) vs := by
  induction front generalizing seen with
  | nil => rfl
  | cons u front ih =>
    rw [List.cons_append, placed, placed, ih, List.map_cons, List.reverse_cons, List.append_assoc]
    rfl

theorem getElem?_imported (hsplit : w.watches = front ++ v :: back) :
    (imported table w).watches[front.length]? =
      some (place table (front.map (·.name)).reverse v) := by
  have hlength := length_placed table [] front
  simp only [imported, hsplit, placed_append, List.append_nil, List.append_assoc]
  rw [List.getElem?_append_right (Nat.le_of_eq hlength), hlength, Nat.sub_self]
  rfl

theorem names_newcomers (id : UInt32) (table : List (String × UInt32)) :
    (newcomers id table).map (·.name) = table.map Prod.fst := by
  induction table generalizing id with
  | nil => rfl
  | cons symbol table ih => rw [newcomers, List.map_cons, List.map_cons, ih]

theorem merged_imported (h : Listing.IsTable table) (w : WatchList) :
    Merged table w (imported table w) := by
  have hadded : (imported table w).watches.drop w.watches.length =
      newcomers w.nextId (unclaimed table w) :=
    List.drop_left' (length_placed table [] w.watches)
  refine ⟨fun hsplit hfront hmem => ?_, fun hsplit hother => ?_, hadded, ?_, rfl⟩
  · rw [getElem?_imported hsplit, place, if_neg (by simpa using hfront),
      lookup_eq_some h.distinct hmem]
    exact congrArg some (relocate_eq _ _)
  · rw [getElem?_imported hsplit, place]
    split
    · rfl
    · rename_i hseen
      have hnot := hother.resolve_left (by simpa using hseen)
      rw [lookup_eq_none]
      intro hname
      obtain ⟨⟨name, address⟩, hmem, heq⟩ := List.mem_map.1 hname
      exact hnot address (heq ▸ hmem)
  · have hnames : ((newcomers w.nextId (unclaimed table w)).map (·.name)).Pairwise fun a b =>
        encodeUtf8 a.toList < encodeUtf8 b.toList := by
      rw [names_newcomers, List.pairwise_map]
      exact h.ascending.filter _
    have hnewcomers := List.pairwise_map.1 hnames
    rw [hadded]
    exact hnewcomers

end Merged

end WatchList

namespace Session

open WatchList Text

variable {ε : Type}

/-- A listing that is read has a table of symbols. -/
theorem isTable_of_readListing {files : Files.FileSystem} {path : String} {listing : Listing}
    (h : readListing files path = .ok listing) : Listing.IsTable listing.symbols.toList := by
  unfold readListing at h
  cases hfile : files.openFile path with
  | error error =>
    rw [hfile] at h
    cases h
  | ok contents =>
    rw [hfile] at h
    cases h
    exact Listing.isTable_symbols _

theorem watches_attach {files : Files.FileSystem} {path : String} {listing : Listing}
    (h : readListing files path = .ok listing) (s : Session ε) :
    (s.attach files path true).2.watches = s.watches.addSymbols listing.symbols.toList := by
  rw [attach, h]
  rfl

/-- To attach a listing and watch its symbols moves the first variable of each
symbol's name to the symbol and leaves the others as they are, and puts the
symbols nobody carried behind them, in the order of the bytes of their names.
To do so again with the same symbols changes nothing, and to do so with others
puts these where their listing says and makes no second variable of any name. -/
theorem import_is_stable_merge (s : Session ε) {files : Files.FileSystem} {path : String}
    {listing : Listing} (h : readListing files path = .ok listing) :
    let table := listing.symbols.toList
    let once := (s.attach files path true).2
    Merged table s.watches once.watches ∧
    ∀ (files' : Files.FileSystem) (path' : String) (listing' : Listing),
      readListing files' path' = .ok listing' →
      let table' := listing'.symbols.toList
      let twice := (once.attach files' path' true).2
      (table' = table → twice.watches = once.watches) ∧
      (∀ symbol ∈ table', twice.watches.AtHome symbol) ∧
      ∀ name, twice.watches.carriers name =
        if name ∈ (table ++ table').map Prod.fst then max 1 (s.watches.carriers name)
        else s.watches.carriers name := by
  intro table once
  have htable := isTable_of_readListing h
  have honce : once.watches = s.watches.addSymbols table := watches_attach h s
  refine ⟨?_, fun files' path' listing' h' => ?_⟩
  · rw [honce, addSymbols_eq_imported htable.named htable.distinct]
    exact merged_imported htable s.watches
  · intro table' twice
    have htable' := isTable_of_readListing h'
    have htwice : twice.watches = once.watches.addSymbols table' := watches_attach h' once
    refine ⟨fun hsame => ?_, ?_, fun name => ?_⟩
    · rw [htwice, hsame]
      refine addSymbols_of_atHome ?_
      rw [honce]
      exact atHome_addSymbols htable.named htable.distinct s.watches
    · rw [htwice]
      exact atHome_addSymbols htable'.named htable'.distinct once.watches
    · have hnamed : ∀ symbol ∈ table ++ table', symbol.1 ≠ "" := by
        intro symbol hsymbol
        exact (List.mem_append.1 hsymbol).elim (htable.named symbol) (htable'.named symbol)
      have hboth : twice.watches = s.watches.addSymbols (table ++ table') := by
        rw [htwice, honce]
        exact List.foldl_append.symm
      rw [hboth, carriers_addSymbols hnamed]

/-- Files all of which hold the same text. -/
def holding (text : String) : Files.FileSystem where
  openFile _ := .ok { bytes := encodeUtf8 text.toList }
  isFile _ := true
  obstacle _ := none

def firstBuild : Files.FileSystem :=
  holding "Symbols by name:\nstart A:00001000\nend A:00003000\nuserdef_0 A:00002000\n"

def secondBuild : Files.FileSystem := holding "Symbols by name:\nstart A:00001004\n"

/-- A session with an automatic name and two variables of one name. -/
def handmade : Session Simulator where
  settings := {}
  fresh := .blank 8
  engine := .blank 8
  watches := {
    watches := [
      { id := 0, address := 0x1000, name := "userdef_0", encoding := .string, value := "old" },
      { id := 1, address := 0x1000, name := "start", encoding := .character, value := "N" },
      { id := 2, address := 0x1000, name := "start", encoding := .string, value := "Nq" }]
    nextId := 3 }

/-- Two builds imported one after the other, the first of them twice. -/
theorem import_into_handmade :
    let once := (handmade.attach firstBuild "p.lst" true).2
    let twice := (once.attach secondBuild "p.lst" true).2
    once.watches.watches.map (fun v => (v.id, v.address, v.name, v.value)) =
      [(0, 0x2000, "userdef_0", ""), (1, 0x1000, "start", "N"), (2, 0x1000, "start", "Nq"),
        (3, 0x3000, "end", "")] ∧
    (once.attach firstBuild "p.lst" true).2.watches = once.watches ∧
    twice.watches.AtHome ("start", 0x1004) ∧
    twice.watches.carriers "start" = 2 ∧ twice.watches.carriers "end" = 1 := by
  intro once twice
  obtain ⟨-, hafter⟩ := import_is_stable_merge handmade
    (rfl : readListing firstBuild "p.lst" = .ok (Listing.ofLines _))
  obtain ⟨hagain, -, -⟩ := hafter firstBuild "p.lst" _ rfl
  obtain ⟨-, hhome, hcarriers⟩ := hafter secondBuild "p.lst" _ rfl
  refine ⟨by decide +kernel, hagain rfl, hhome _ (by decide +kernel), ?_, ?_⟩
  · exact (hcarriers "start").trans (by decide +kernel)
  · exact (hcarriers "end").trans (by decide +kernel)

end Session

end Monitor68
