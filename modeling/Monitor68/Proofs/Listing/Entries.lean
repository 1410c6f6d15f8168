import Monitor68.Proofs.Listing.Printed

/-!
# The entries of a listing

The entries of a listing are what its code lines say, in their order; the
lines of the tables of symbols are none.  A listing says of an address what
the last entry about it says.
-/

namespace Monitor68.Listing

/-- The addresses and rows of the code lines, for a reader in a mode. -/
def entriesFrom : Mode → List String → List (UInt32 × UInt32)
  | _, [] => []
  | .code, line :: rest =>
    if opensSymbols line.toList then entriesFrom .symbols rest
    else (codeLine? line.toList).toList ++ entriesFrom .code rest
  | .symbols, line :: rest =>
    entriesFrom (if isBlankLine line.toList then .code else .symbols) rest

/-- The addresses and rows of the code lines of a listing. -/
def entries (lines : List String) : List (UInt32 × UInt32) := entriesFrom .code lines

/-- Reading lines inserts their entries one after the other. -/
theorem lines_foldl_feed (lines : List String) (r : Reader) :
    (lines.foldl Reader.feed r).listing.lines =
      (entriesFrom r.mode lines).foldl (fun m e => m.insert e.1 e.2) r.listing.lines := by
  induction lines generalizing r with
  | nil =>
    obtain ⟨mode, listing⟩ := r
    cases mode <;> rfl
  | cons line rest ih =>
    rw [List.foldl_cons, ih]
    obtain ⟨mode, listing⟩ := r
    cases mode with
    | code =>
      simp only [Reader.feed, entriesFrom]
      split
      · rfl
      · cases codeLine? line.toList <;> rfl
    | symbols =>
      simp only [Reader.feed, entriesFrom]
      split
      · rfl
      · cases symbolLine? line.toList <;> rfl

/-- The row of an address is that of the last entry about it. -/
theorem lineFor_ofLines (lines : List String) (address : UInt32) :
    (ofLines lines).lineFor address =
      ((entries lines).filter (·.1 = address)).getLast?.map Prod.snd := by
  rw [lineFor, ofLines, lines_foldl_feed, getElem?_foldl_insert Prod.fst Prod.snd,
    Std.ExtTreeMap.getElem?_empty, Option.or_none]
  rfl

end Monitor68.Listing
