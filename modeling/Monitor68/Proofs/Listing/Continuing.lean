import Mathlib.Data.List.TakeWhile
import Monitor68.Listing.Basic
import Monitor68.Proofs.Text.RawLines

/-!
# Reading on in a listing

What the reader makes of a line depends on its mode and not on what it has
found so far, and the mode depends on the lines alone.  So the rest of a
listing can be read by itself, in the mode that the lines in front of it
leave, and is then laid over what these say (`ofLines_append`).

A blank line that closes a table of symbols leaves the mode in which every
listing begins.  The rest is then a listing of its own, with tables of its
own, and `closed_table_complete_iff` says when these leave the symbols as
they are.
-/

namespace Monitor68.Listing

open Monitor68.Text Monitor68.Files

/-! ## One listing over another -/

/-- A listing with another one laid over it, which comes first where both say
something. -/
def overlay (under above : Listing) : Listing where
  lines := under.lines ∪ above.lines
  symbols := under.symbols ∪ above.symbols

/-- Whether a listing says nothing that another one does not say as well. -/
structure Within (l l' : Listing) : Prop where
  lines : ∀ address row, l.lineFor address = some row → l'.lineFor address = some row
  symbols : ∀ name address, l.lookupSymbol name = some address →
    l'.lookupSymbol name = some address

section Overlay

variable (under above : Listing)

@[simp] theorem lineFor_overlay (address : UInt32) :
    (under.overlay above).lineFor address =
      (above.lineFor address).or (under.lineFor address) :=
  Std.ExtTreeMap.getElem?_union

@[simp] theorem lookupSymbol_overlay (name : String) :
    (under.overlay above).lookupSymbol name =
      (above.lookupSymbol name).or (under.lookupSymbol name) :=
  Std.ExtTreeMap.getElem?_union

theorem lines_eq_iff (l l' : Listing) :
    l.lines = l'.lines ↔ ∀ address, l.lineFor address = l'.lineFor address :=
  ⟨fun h address => congrArg (·[address]?) h, fun h => Std.ExtTreeMap.ext_getElem? h⟩

theorem symbols_eq_iff (l l' : Listing) :
    l.symbols = l'.symbols ↔ ∀ name, l.lookupSymbol name = l'.lookupSymbol name :=
  ⟨fun h name => congrArg (·[name]?) h, fun h => Std.ExtTreeMap.ext_getElem? h⟩

theorem eq_iff (l l' : Listing) : l = l' ↔ l.lines = l'.lines ∧ l.symbols = l'.symbols := by
  obtain ⟨lines, symbols⟩ := l
  obtain ⟨lines', symbols'⟩ := l'
  exact ⟨Listing.mk.inj, fun ⟨hlines, hsymbols⟩ => congr (congrArg Listing.mk hlines) hsymbols⟩

theorem overlay_empty : under.overlay empty = under := by
  have hline : ∀ address, empty.lineFor address = none := fun _ => Std.ExtTreeMap.getElem?_empty
  have hsymbol : ∀ name, empty.lookupSymbol name = none := fun _ => Std.ExtTreeMap.getElem?_empty
  simp [eq_iff, lines_eq_iff, symbols_eq_iff, hline, hsymbol]

theorem or_eq_right_iff {α : Type} (first second : Option α) :
    first.or second = second ↔ ∀ a, first = some a → second = some a := by
  cases first with
  | none => simp
  | some a => simp [eq_comm]

theorem symbols_overlay_eq_iff :
    (under.overlay above).symbols = under.symbols ↔
      ∀ name address, above.lookupSymbol name = some address →
        under.lookupSymbol name = some address := by
  simp only [symbols_eq_iff, lookupSymbol_overlay, or_eq_right_iff]

/-- A listing stays as it is exactly if it says already what is laid over it. -/
theorem overlay_eq_iff : under.overlay above = under ↔ above.Within under := by
  have hlines : (under.overlay above).lines = under.lines ↔
      ∀ address row, above.lineFor address = some row → under.lineFor address = some row := by
    simp only [lines_eq_iff, lineFor_overlay, or_eq_right_iff]
  rw [eq_iff, hlines, symbols_overlay_eq_iff]
  exact ⟨fun h => ⟨h.1, h.2⟩, fun h => ⟨h.lines, h.symbols⟩⟩

/-- To lay a listing with one more line over another is to lay the listing over
it and to add the line. -/
theorem overlay_insert_line (address row : UInt32) :
    under.overlay { above with lines := above.lines.insert address row } =
      { under.overlay above with lines := (under.overlay above).lines.insert address row } :=
  congrArg (Listing.mk · _)
    (Std.ExtTreeMap.union_insert_right_eq_insert_union (p := ⟨address, row⟩))

theorem overlay_insert_symbol (name : String) (address : UInt32) :
    under.overlay { above with symbols := above.symbols.insert name address } =
      { under.overlay above with symbols := (under.overlay above).symbols.insert name address } :=
  congrArg (Listing.mk _)
    (Std.ExtTreeMap.union_insert_right_eq_insert_union (p := ⟨name, address⟩))

end Overlay

/-! ## The mode -/

/-- The mode behind a line. -/
def Mode.next (mode : Mode) (line : String) : Mode :=
  match mode with
  | .code => if opensSymbols line.toList then .symbols else .code
  | .symbols => if isBlankLine line.toList then .code else .symbols

/-- The mode behind lines that are read from the start. -/
def modeAfter (lines : List String) : Mode := lines.foldl Mode.next .code

/-- What lines say to a reader in a mode. -/
def readFrom (mode : Mode) (lines : List String) : Listing :=
  (lines.foldl Reader.feed { mode }).listing

/-- The step lemma: what was found before lies under what a line says. -/
theorem feed_overlay (mode : Mode) (under l : Listing) (line : String) :
    Reader.feed { mode, listing := under.overlay l } line =
      { mode := mode.next line,
        listing := under.overlay (Reader.feed { mode, listing := l } line).listing } := by
  cases mode with
  | code =>
    simp only [Reader.feed, Mode.next]
    split
    · rfl
    · cases codeLine? line.toList with
      | none => rfl
      | some entry => exact congrArg (Reader.mk .code) (overlay_insert_line under l _ _).symm
  | symbols =>
    simp only [Reader.feed, Mode.next]
    split
    · rfl
    · cases symbolLine? line.toList with
      | none => rfl
      | some entry => exact congrArg (Reader.mk .symbols) (overlay_insert_symbol under l _ _).symm

theorem mode_feed (r : Reader) (line : String) : (r.feed line).mode = r.mode.next line := by
  have h := feed_overlay r.mode r.listing empty line
  rw [overlay_empty] at h
  exact congrArg Reader.mode h

/-- The run lemma. -/
theorem foldl_feed_overlay (mode : Mode) (under l : Listing) (lines : List String) :
    lines.foldl Reader.feed { mode, listing := under.overlay l } =
      { mode := lines.foldl Mode.next mode,
        listing := under.overlay (lines.foldl Reader.feed { mode, listing := l }).listing } := by
  induction lines generalizing mode l with
  | nil => rfl
  | cons line lines ih =>
    rw [List.foldl_cons, feed_overlay, ih, List.foldl_cons, List.foldl_cons]
    have hmode := mode_feed { mode, listing := l } line
    rw [← hmode]

theorem foldl_feed (r : Reader) (lines : List String) :
    lines.foldl Reader.feed r =
      { mode := lines.foldl Mode.next r.mode,
        listing := r.listing.overlay (readFrom r.mode lines) } := by
  have h := foldl_feed_overlay r.mode r.listing empty lines
  rwa [overlay_empty] at h

/-- The rest of a listing is read by itself, in the mode that is left by the
lines in front of it, and is laid over what they say. -/
theorem ofLines_append (front back : List String) :
    ofLines (front ++ back) = (ofLines front).overlay (readFrom (modeAfter front) back) := by
  have hmode : (front.foldl Reader.feed {}).mode = modeAfter front := by
    rw [foldl_feed]
    rfl
  rw [ofLines, List.foldl_append, foldl_feed, hmode]
  rfl

/-! ## Files -/

/-- The listing in a file, up to the first line that is no text. -/
def ofContents (contents : Contents) : Listing := ofLines (readableLines contents.lines)

/-- The listing in a file of some bytes. -/
def ofBytes (bytes : List UInt8) : Listing := ofContents { bytes }

theorem ofBytes_eq (bytes : List UInt8) :
    ofBytes bytes = ofLines (texts ((rawLines bytes).takeWhile isText)) :=
  congrArg ofLines (readableLines_bytes bytes)

theorem ofBytes_flatten {raws : List (List UInt8)} (h : IsCut raws) :
    ofBytes raws.flatten = ofLines (texts (raws.takeWhile isText)) := by
  rw [ofBytes_eq, h.rawLines_flatten]

/-! ## Tables that are closed -/

/-- Lines up to the blank line that closes their first table of symbols. -/
inductive ClosesTable : List String → Prop where
  | intro {before entries : List String} {header blank : String} :
      (∀ line ∈ before, opensSymbols line.toList = false) →
      opensSymbols header.toList = true →
      (∀ line ∈ entries, isBlankLine line.toList = false) →
      isBlankLine blank.toList = true →
      ClosesTable (before ++ header :: (entries ++ [blank]))

theorem foldl_next_code {lines : List String}
    (h : ∀ line ∈ lines, opensSymbols line.toList = false) :
    lines.foldl Mode.next .code = .code := by
  induction lines with
  | nil => rfl
  | cons line lines ih =>
    rw [List.forall_mem_cons] at h
    rw [List.foldl_cons, Mode.next, h.1]
    exact ih h.2

theorem foldl_next_symbols {lines : List String}
    (h : ∀ line ∈ lines, isBlankLine line.toList = false) :
    lines.foldl Mode.next .symbols = .symbols := by
  induction lines with
  | nil => rfl
  | cons line lines ih =>
    rw [List.forall_mem_cons] at h
    rw [List.foldl_cons, Mode.next, h.1]
    exact ih h.2

theorem ClosesTable.modeAfter_eq {lines : List String} (h : ClosesTable lines) :
    modeAfter lines = .code := by
  obtain ⟨hbefore, hheader, hentries, hblank⟩ := h
  rw [modeAfter, List.foldl_append, foldl_next_code hbefore, List.foldl_cons, Mode.next, hheader,
    if_pos rfl, List.foldl_append, foldl_next_symbols hentries, List.foldl_cons, Mode.next, hblank]
  rfl

/-- Lines that open no table name no symbols. -/
theorem lookupSymbol_ofLines_of_no_header {lines : List String}
    (h : ∀ line ∈ lines, opensSymbols line.toList = false) (name : String) :
    (ofLines lines).lookupSymbol name = none := by
  have hsymbols : ∀ l : Listing,
      (lines.foldl Reader.feed { listing := l }).listing.symbols = l.symbols := by
    induction lines with
    | nil => exact fun l => rfl
    | cons line lines ih =>
      rw [List.forall_mem_cons] at h
      intro l
      rw [List.foldl_cons, Reader.feed, h.1]
      cases codeLine? line.toList with
      | none => exact ih h.2 l
      | some entry => exact ih h.2 _
  rw [lookupSymbol, ofLines, hsymbols]
  exact Std.ExtTreeMap.getElem?_empty

/-- Behind the blank line that closes its first table, a listing is read as one
of its own and laid over what was there.  The symbols stay those of the part
up to the blank line exactly if the rest names no other symbol and moves none,
as it does if it opens no table. -/
theorem closed_table_complete_iff {bytes : List UInt8} {front back : List (List UInt8)}
    (hcut : rawLines bytes = front ++ back) (htext : ∀ raw ∈ front, isText raw = true)
    (hcloses : ClosesTable (texts front)) :
    let whole := ofBytes bytes
    let closed := ofBytes front.flatten
    let rest := ofBytes back.flatten
    whole = closed.overlay rest ∧
    (whole.symbols = closed.symbols ↔
      ∀ name address, rest.lookupSymbol name = some address →
        closed.lookupSymbol name = some address) ∧
    ((∀ line ∈ texts back, opensSymbols line.toList = false) → whole.symbols = closed.symbols) := by
  intro whole closed rest
  have hraws : IsCut (front ++ back) := hcut ▸ isCut_rawLines bytes
  have hclosed : closed = ofLines (texts front) := by
    show ofBytes front.flatten = _
    rw [ofBytes_flatten (hraws.sublist (List.sublist_append_left front back)),
      List.takeWhile_eq_self_iff.2 htext]
  have hrest : rest = ofLines (texts (back.takeWhile isText)) :=
    ofBytes_flatten (hraws.sublist (List.sublist_append_right front back))
  have hwhole : whole = closed.overlay rest := by
    show ofBytes bytes = _
    rw [ofBytes_eq, hcut, List.takeWhile_append_of_pos htext, texts, List.filterMap_append,
      ofLines_append, hclosed, hrest]
    exact congrArg (fun mode => overlay _ (readFrom mode _)) hcloses.modeAfter_eq
  have hsymbols := hwhole ▸ symbols_overlay_eq_iff closed rest
  refine ⟨hwhole, hsymbols, fun hnone => hsymbols.2 fun name address hname => ?_⟩
  have hread : ∀ line ∈ texts (back.takeWhile isText), opensSymbols line.toList = false := by
    intro line hline
    exact hnone line (((List.takeWhile_prefix isText).sublist.filterMap textOf).subset hline)
  rw [hrest, lookupSymbol_ofLines_of_no_header hread] at hname
  cases hname

/-- The raw lines of a listing whose first table is closed. -/
def firstTable : List (List UInt8) :=
  ["Symbols by name:\n", "start A:00008000\n", "\n"].map fun line => encodeUtf8 line.toList

/-- The raw lines of another table, with one more symbol. -/
def secondTable : List (List UInt8) :=
  ["Symbols by name:\n", "late A:00009000\n"].map fun line => encodeUtf8 line.toList

def twoTables : List UInt8 := (firstTable ++ secondTable).flatten

theorem rawLines_twoTables : rawLines twoTables = firstTable ++ secondTable := by
  decide +kernel

theorem isText_firstTable : ∀ raw ∈ firstTable, isText raw = true := by
  decide +kernel

theorem closesTable_firstTable : ClosesTable (texts firstTable) := by
  have htexts : texts firstTable = [] ++ "Symbols by name:" :: (["start A:00008000"] ++ [""]) := by
    decide +kernel
  rw [htexts]
  exact .intro (by decide) (by decide) (by decide) (by decide)

theorem second_table_is_laid_over :
    rawLines twoTables = firstTable ++ secondTable ∧
    (∀ raw ∈ firstTable, isText raw = true) ∧ ClosesTable (texts firstTable) ∧
    ofBytes twoTables = (ofBytes firstTable.flatten).overlay (ofBytes secondTable.flatten) ∧
    (ofBytes twoTables).symbols ≠ (ofBytes firstTable.flatten).symbols := by
  obtain ⟨hwhole, hsymbols, -⟩ :=
    closed_table_complete_iff rawLines_twoTables isText_firstTable closesTable_firstTable
  refine ⟨rawLines_twoTables, isText_firstTable, closesTable_firstTable, hwhole, fun hsame => ?_⟩
  have hlate : (ofBytes secondTable.flatten).lookupSymbol "late" = some 0x9000 := by
    decide +kernel
  have hclosed : (ofBytes firstTable.flatten).lookupSymbol "late" = some 0x9000 :=
    hsymbols.1 hsame "late" 0x9000 hlate
  exact absurd hclosed (by decide +kernel)

/-- A blank line behind a table of symbols does not end the symbols for good. -/
theorem table_opens_again :
    ¬ ∀ (bytes : List UInt8) (front back : List (List UInt8)),
      rawLines bytes = front ++ back → (∀ raw ∈ front, isText raw = true) →
      ClosesTable (texts front) → (ofBytes bytes).symbols = (ofBytes front.flatten).symbols := by
  intro h
  have hsame := h _ _ _ rawLines_twoTables isText_firstTable closesTable_firstTable
  have hlate : (ofBytes twoTables).lookupSymbol "late" = some 0x9000 := by decide +kernel
  rw [(symbols_eq_iff _ _).1 hsame] at hlate
  exact absurd hlate (by decide +kernel)

end Monitor68.Listing
