import Monitor68.Listing.Basic
import Monitor68.Proofs.Text.Order
import Monitor68.Proofs.Text.Words

/-!
# The symbols of a listing

The table of symbols of a listing names each symbol once, names no symbol by the
empty text, and is in the order of the bytes of the names.
-/

namespace Monitor68.Listing

open Monitor68.Text

/-- A table of symbols in the order of the bytes of their names. -/
structure IsTable (table : List (String × UInt32)) : Prop where
  named : ∀ symbol ∈ table, symbol.1 ≠ ""
  ascending : table.Pairwise fun a b => encodeUtf8 a.1.toList < encodeUtf8 b.1.toList

theorem IsTable.distinct {table : List (String × UInt32)} (h : IsTable table) :
    (table.map Prod.fst).Nodup := by
  refine List.pairwise_map.2 (h.ascending.imp fun hlt heq => ?_)
  rw [heq] at hlt
  exact List.lt_irrefl _ hlt

theorem name_ne_of_symbolLine? {line : List Char} {name : String} {address : UInt32}
    (h : symbolLine? line = some (name, address)) : name ≠ "" := by
  unfold symbolLine? at h
  split at h
  · rename_i word later hwords
    obtain ⟨_, -, heq⟩ := Option.map_eq_some_iff.1 h
    obtain ⟨rfl, rfl⟩ := Prod.mk.inj heq
    have hword : word ≠ [] := ne_nil_of_mem_words (hwords ▸ List.mem_cons_self)
    intro hempty
    exact hword (by simpa using congrArg String.toList hempty)
  · cases h

/-- The step lemma. -/
theorem named_feed {r : Reader} (h : ∀ name ∈ r.listing.symbols, name ≠ "") (line : String) :
    ∀ name ∈ (r.feed line).listing.symbols, name ≠ "" := by
  obtain ⟨mode, listing⟩ := r
  cases mode with
  | code =>
    simp only [Reader.feed]
    split
    · exact h
    · split <;> exact h
  | symbols =>
    simp only [Reader.feed]
    split
    · exact h
    · split
      · rename_i name address hline
        intro other hother
        obtain heq | hother := Std.ExtTreeMap.mem_insert.1 hother
        · rw [← Std.LawfulEqOrd.compare_eq_iff_eq.1 heq]
          exact name_ne_of_symbolLine? hline
        · exact h other hother
      · exact h

/-- The run lemma. -/
theorem named_foldl_feed {r : Reader} (h : ∀ name ∈ r.listing.symbols, name ≠ "")
    (lines : List String) : ∀ name ∈ (lines.foldl Reader.feed r).listing.symbols, name ≠ "" := by
  induction lines generalizing r with
  | nil => exact h
  | cons line rest ih => exact ih (named_feed h line)

theorem isTable_symbols (lines : List String) : IsTable (ofLines lines).symbols.toList where
  named symbol hsymbol := by
    have hfound := Std.ExtTreeMap.mem_toList_iff_getElem?_eq_some.1 hsymbol
    have hmem : symbol.1 ∈ (ofLines lines).symbols :=
      Std.ExtTreeMap.mem_iff_isSome_getElem?.2 (by rw [hfound]; rfl)
    have hempty : ∀ name ∈ ({} : Reader).listing.symbols, name ≠ "" :=
      fun name hname => absurd hname Std.ExtTreeMap.not_mem_empty
    exact named_foldl_feed hempty lines symbol.1 hmem
  ascending := by
    refine Std.ExtTreeMap.ordered_keys_toList.imp fun {a b} hlt => encodeUtf8_lt ?_
    have hnames : a.1 < b.1 := compareOfLessAndEq_eq_lt.1 hlt
    exact hnames

end Monitor68.Listing
