import Mathlib.Data.Option.Basic
import Monitor68.Proofs.Inspect.Watching
import Monitor68.Proofs.Session.Stepping

/-!
# Looking at variables and storing their values

To evaluate a list of variables is to make a list of what memory gives now, and
to refresh it is to go through it and store as much in each variable where it
is.  The two come to the same (`storeEach_eq_refresh`), and so do a look at a
session and its stored variables.

What a variable shows is a matter of its own address and encoding and of what
memory gives there, be it an error.  `Spares` are the requests that are not
about a variable: whatever they do to others, it goes on to show what it
showed (`valueOf?_of_spared`).
-/

namespace Monitor68

/-! ## Memory that reads the same -/

/-- Two engines of which the same can be read, and at the same places. -/
structure SameReads {ε δ : Type} [Engine ε] [Engine δ] (e : ε) (f : δ) : Prop where
  byte : ∀ address, (Engine.readByte e address).toOption = (Engine.readByte f address).toOption
  block : ∀ address length, (Engine.readBlock e address length).toOption =
    (Engine.readBlock f address length).toOption

/-- Simulators of equal memory differ in nothing that can be read. -/
theorem SameReads.of_memory {a b : Simulator} (h : a.memory = b.memory) : SameReads a b where
  byte address := by
    have hread : Simulator.readByte a address = Simulator.readByte b address := by
      rw [Simulator.readByte, Simulator.readByte, h]
    exact congrArg Except.toOption hread
  block address length := by
    have hread : Simulator.readBlock a address length = Simulator.readBlock b address length := by
      rw [Simulator.readBlock, Simulator.readBlock, h]
    exact congrArg Except.toOption hread

namespace Decode

variable {ε δ : Type} [Engine ε] [Engine δ] {e : ε} {f : δ}

/-- Two answers that give the same are equal, or errors both. -/
theorem toOption_cases {α : Type} {x y : Except EngineError α} (h : x.toOption = y.toOption) :
    (∃ a b, x = .error a ∧ y = .error b) ∨ ∃ a, x = .ok a ∧ y = .ok a := by
  cases x with
  | error a =>
    cases y with
    | error b => exact .inl ⟨a, b, rfl, rfl⟩
    | ok b => cases h
  | ok a =>
    cases y with
    | error b => cases h
    | ok b => exact .inr ⟨a, rfl, by rw [Option.some.inj h]⟩

theorem value_congr (h : SameReads e f) (address : UInt32) (encoding : Encoding) :
    value e address encoding = value f address encoding := by
  cases encoding with
  | number size form =>
    simp only [value, number]
    obtain ⟨_, _, he, hf⟩ | ⟨_, he, hf⟩ := toOption_cases (h.block address size.width) <;>
      rw [he, hf]
  | character =>
    simp only [value, character]
    obtain ⟨_, _, he, hf⟩ | ⟨_, he, hf⟩ := toOption_cases (h.byte address) <;> rw [he, hf]
  | string =>
    have hbytes : byteAt e address = byteAt f address := by
      funext offset
      simp only [byteAt, h.byte]
    simp only [value, string, hbytes]

theorem shown_congr (h : SameReads e f) (address : UInt32) (encoding : Encoding) :
    shown e address encoding = shown f address encoding := by
  rw [shown, shown, value_congr h]

end Decode

namespace WatchList

variable {ε : Type} [Engine ε] {w : WatchList} {id : UInt32}

/-- The variables without their values. -/
def bare (w : WatchList) : List Watch := w.watches.map fun v => { v with value := "" }

/-- What a list shows does not depend on the values that it keeps. -/
theorem evaluate_of_bare {w w' : WatchList} (h : w.bare = w'.bare) (e : ε) :
    w.evaluate e = w'.evaluate e := by
  have hbare : ∀ w : WatchList, w.evaluate e = w.bare.map (refreshed e) := by
    intro w
    rw [evaluate, bare, List.map_map]
    rfl
  rw [hbare w, hbare w', h]

theorem evaluate_congr {δ : Type} [Engine δ] {e : ε} {f : δ} (h : SameReads e f)
    (w : WatchList) : w.evaluate e = w.evaluate f :=
  List.map_congr_left fun v _ => by rw [refreshed, refreshed, Decode.shown_congr h]

/-! ## Storing where the variables are -/

/-- Store the value of the variable at a position. -/
def storeAt (e : ε) (w : WatchList) (position : Nat) : WatchList :=
  { w with watches := w.watches.modify position (refreshed e) }

/-- Go through a list and store the value of each variable. -/
def storeEach (w : WatchList) (e : ε) : WatchList :=
  (List.range w.watches.length).foldl (storeAt e) w

/-- After so many turns so many variables have their new values, and the others
are as before. -/
theorem getElem?_storeAt (w : WatchList) (e : ε) (turns position : Nat) :
    ((List.range turns).foldl (storeAt e) w).watches[position]? =
      if position < turns then w.watches[position]?.map (refreshed e)
      else w.watches[position]? := by
  induction turns with
  | zero => rfl
  | succ turns ih =>
    rw [List.range_succ, List.foldl_concat]
    simp only [storeAt, List.getElem?_modify, ih]
    by_cases hhere : turns = position
    · subst hhere
      simp
    · have hturns : position < turns + 1 ↔ position < turns := by omega
      simp [hhere, hturns]

theorem nextId_storeAt (w : WatchList) (e : ε) (positions : List Nat) :
    (positions.foldl (storeAt e) w).nextId = w.nextId := by
  induction positions generalizing w with
  | nil => rfl
  | cons position positions ih => exact ih (storeAt e w position)

/-- To go through a list is to refresh it. -/
theorem storeEach_eq_refresh (w : WatchList) (e : ε) : w.storeEach e = w.refresh e := by
  have hwatches : (w.storeEach e).watches = (w.refresh e).watches := by
    refine List.ext_getElem? fun position => ?_
    rw [storeEach, getElem?_storeAt]
    split
    · exact List.getElem?_map.symm
    · rename_i hbeyond
      rw [refresh, evaluate, List.getElem?_map, List.getElem?_eq_none (Nat.le_of_not_lt hbeyond)]
      rfl
  have hnext : (w.storeEach e).nextId = (w.refresh e).nextId := nextId_storeAt w e _
  cases hstored : w.storeEach e
  cases hrefreshed : w.refresh e
  rw [hstored, hrefreshed] at hwatches hnext
  obtain rfl := hwatches
  obtain rfl := hnext
  rfl

/-! ## What others have no part in -/

/-- What the variable with an id shows. -/
def valueOf? (w : WatchList) (e : ε) (id : UInt32) : Option String :=
  ((w.evaluate e).find? (·.id == id)).map (·.value)

/-- A request that is not about the variable with an id.  A symbol is about the
first variable of its name. -/
def Request.Spares (w : WatchList) (id : UInt32) : Request ε → Prop
  | .add _ _ _ | .evaluate _ | .refresh _ => True
  | .addSymbol name _ => ∀ v, w.watches.find? (·.name == name) = some v → v.id ≠ id
  | .remove other | .setEncoding other _ => other ≠ id
  | .clear => False

/-- A history of which no request is about the variable with an id. -/
def Spared (id : UInt32) : WatchList → List (Request ε) → Prop
  | _, [] => True
  | w, request :: rest => request.Spares w id ∧ Spared id (request.apply w) rest

theorem valueOf?_eq (w : WatchList) (e : ε) (id : UInt32) :
    w.valueOf? e id = (w.get? id).map fun v => Decode.shown e v.address v.encoding := by
  rw [valueOf?, evaluate, List.find?_map, Option.map_map]
  rfl

/-- The step lemma. -/
theorem get?_apply_of_spares {request : Request ε} (h : request.Spares w id) {v : Watch}
    (hv : w.get? id = some v) :
    ∃ u, (request.apply w).get? id = some u ∧ u.address = v.address ∧
      u.encoding = v.encoding := by
  have hadd : ∀ address name encoding, (w.add address name encoding).2.get? id = some v := by
    intro address name encoding
    have hfirst : w.watches.find? (·.id == id) = some v := hv
    rw [add_eq, get?, List.find?_append, hfirst, Option.some_or]
  cases request with
  | add address name encoding => exact ⟨v, hadd address name encoding, rfl, rfl⟩
  | addSymbol name address =>
    refine ⟨v, ?_, rfl, rfl⟩
    show (w.addSymbol name address).2.get? id = some v
    rw [addSymbol]
    cases hfind : w.watches.find? (·.name == name) with
    | none => exact hadd address (some name) .unsignedByte
    | some u =>
      refine (find?_modifyFirst fun u' hu' => ?_).trans hv
      have hmoved : (relocate address u').id = u'.id := by rw [relocate_eq]
      have hne : u'.id ≠ id := h u' hu'
      exact ⟨beq_false_of_ne hne, beq_false_of_ne (hmoved ▸ hne)⟩
  | remove other =>
    refine ⟨v, ?_, rfl, rfl⟩
    have hsame : ∀ u : Watch, (u.id != other) = true ∧ (u.id == id) = true ↔ (u.id == id) = true :=
      fun u => and_iff_right_of_imp fun hu => by
        rw [eq_of_beq hu]
        exact bne_iff_ne.2 (Ne.symm h)
    show (w.watches.filter (·.id != other)).find? (·.id == id) = some v
    rw [List.find?_filter, ← hv, get?]
    simp only [hsame, Bool.decide_eq_true]
  | clear => exact h.elim
  | setEncoding other encoding =>
    refine ⟨v, (find?_modifyFirst fun u hu => ?_).trans hv, rfl, rfl⟩
    have hother : u.id = other := by simpa using List.find?_some hu
    have hne : u.id ≠ id := hother ▸ h
    exact ⟨beq_false_of_ne hne, beq_false_of_ne hne⟩
  | evaluate engine => exact ⟨v, hv, rfl, rfl⟩
  | refresh engine =>
    refine ⟨refreshed engine v, ?_, rfl, rfl⟩
    show (w.watches.map (refreshed engine)).find? (·.id == id) = some (refreshed engine v)
    rw [List.find?_map]
    exact congrArg (Option.map (refreshed engine)) hv

/-- The run lemma. -/
theorem get?_through_of_spared {history : List (Request ε)} (h : Spared id w history) {v : Watch}
    (hv : w.get? id = some v) :
    ∃ u, (w.through history).get? id = some u ∧ u.address = v.address ∧
      u.encoding = v.encoding := by
  induction history generalizing w v with
  | nil => exact ⟨v, hv, rfl, rfl⟩
  | cons request rest ih =>
    obtain ⟨u, hu, haddress, hencoding⟩ := get?_apply_of_spares h.1 hv
    obtain ⟨u', hu', haddress', hencoding'⟩ := ih h.2 hu
    exact ⟨u', hu', haddress'.trans haddress, hencoding'.trans hencoding⟩

/-- What a variable shows does not depend on what becomes of others. -/
theorem valueOf?_of_spared {history : List (Request ε)} (h : Spared id w history) {v : Watch}
    (hv : w.get? id = some v) (e : ε) : (w.through history).valueOf? e id = w.valueOf? e id := by
  obtain ⟨u, hu, haddress, hencoding⟩ := get?_through_of_spared h hv
  rw [valueOf?_eq, valueOf?_eq, hu, hv, Option.map_some, Option.map_some, haddress, hencoding]

/-! ## Looking and storing -/

/-- To go through a list and store each value, to refresh it and to evaluate it
give the same variables, and neither of them is another one afterwards.  At
each place stands what was there, with the text of its own value or of its own
error.  Nothing of the engine counts but what can be read, and no request that
is not about a variable has a part in what it shows.  So a look at a session
shows what its variables would be refreshed to, before and after, and in every
other session with the same variables and the same memory. -/
theorem looking_agrees_with_storing (w : WatchList) (e : ε) :
    w.storeEach e = w.refresh e ∧
    (w.refresh e).watches = w.evaluate e ∧ (w.refresh e).nextId = w.nextId ∧
    (w.refresh e).evaluate e = w.evaluate e ∧
    (∀ position : Nat, (w.evaluate e)[position]? = w.watches[position]?.map fun v =>
      { v with value := match Decode.value e v.address v.encoding with
        | .ok text => text
        | .error error => error.message }) ∧
    (∀ (δ : Type) [Engine δ] (f : δ), SameReads e f → w.evaluate e = w.evaluate f) ∧
    (∀ (id : UInt32) (history : List (Request ε)), (w.get? id).isSome → Spared id w history →
      (w.through history).valueOf? e id = w.valueOf? e id) ∧
    ∀ s : Session ε,
      s.view.watches = s.refreshWatches.watches.watches ∧ s.refreshWatches.view = s.view ∧
      ∀ s' : Session ε, SameReads s.engine s'.engine → s.watches.bare = s'.watches.bare →
        s'.view.watches = s.refreshWatches.watches.watches := by
  refine ⟨storeEach_eq_refresh w e, rfl, rfl, w.evaluate_refresh e,
    fun position => List.getElem?_map, fun δ _ f hreads => evaluate_congr hreads w,
    fun id history hid hspared => ?_, fun s => ⟨rfl, ?_, fun s' hreads hbare => ?_⟩⟩
  · obtain ⟨v, hv⟩ := Option.isSome_iff_exists.1 hid
    exact valueOf?_of_spared hspared hv e
  · exact congrArg (View.of s.engine s.listing) (s.watches.evaluate_refresh s.engine)
  · show s'.watches.evaluate s'.engine = s.watches.evaluate s.engine
    rw [evaluate_congr hreads, evaluate_of_bare hbare]

/-- A byte of memory and a word beyond it. -/
def halfReadable : WatchList where
  watches := [
    { id := 0, address := 7, name := "last", encoding := .number .byte .unsigned, value := "9" },
    { id := 1, address := 0x100, name := "lost", encoding := .number .word .hex }]
  nextId := 2

/-- The word becomes a string and goes. -/
def brokenOff : List (Request Simulator) := [.setEncoding 1 .string, .remove 1]

/-- The byte shows its value and the word its error.  The byte goes on to do so
whatever becomes of the word, and memory alone counts, be the simulator on or
off. -/
theorem halfReadable_shows_both :
    let e := Simulator.blank 8
    let on := { e with powered := true }
    (halfReadable.evaluate e).map (·.value) = ["0", "invalid address"] ∧
    (halfReadable.storeEach e).watches = halfReadable.evaluate e ∧
    halfReadable.evaluate on = halfReadable.evaluate e ∧
    (halfReadable.through brokenOff).valueOf? e 0 = some "0" := by
  intro e on
  obtain ⟨hstore, hrefresh, -, -, -, hreads, hspared, -⟩ :=
    looking_agrees_with_storing halfReadable e
  refine ⟨by decide +kernel, by rw [hstore, hrefresh], (hreads _ on (.of_memory rfl)).symm, ?_⟩
  have hother : (1 : UInt32) ≠ 0 := by decide
  rw [hspared 0 brokenOff rfl ⟨hother, hother, trivial⟩]
  decide +kernel

end WatchList

end Monitor68
