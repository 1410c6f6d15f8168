import Monitor68.Listing.Basic
import Monitor68.Proofs.Listing.Fields
import Monitor68.Proofs.Text.Lines

/-!
# Listings that were printed read back

An assembler prints one line for each instruction, with the code and the
number of the source line in front of the source text, and a table of
symbols behind them.  Nothing is known of the source text and of the names,
which may look like anything else on such a line.  Still, the reader finds
what was printed: the fields in front decide a line, and what stands behind
them is not looked at.

`printed_listing_reads_back` is about the bytes of a file.  It says that a
listing holds exactly the addresses and the names that were printed, each
with what was printed last about it.
-/

namespace Monitor68.Listing

open Monitor68.Text Monitor68.Files

/-! ## What is printed -/

/-- White space between two words of a line. -/
structure Space where
  chars : List Char
  blank : IsGap chars
  ne_nil : chars ≠ []
  oneLine : '\n' ∉ chars

/-- A word of code and the white space in front of it.  It is not a number
with a colon behind it. -/
structure CodeWord where
  gap : Space
  chars : List Char
  isWord : IsWord chars
  notMark : ∀ digits ≠ [], (∀ c ∈ digits, c.isDigit = true) → chars ≠ digits ++ [':']

/-- The line of an instruction: a section of two hexadecimal digits and an
address, at least one word of code, the number of the source line, and any
text. -/
structure Instruction where
  high : Char
  low : Char
  high_hex : isHexDigit high = true
  low_hex : isHexDigit low = true
  place : AddressDigits
  code : List CodeWord
  code_ne_nil : code ≠ []
  gap : Space
  row : UInt32
  text : List Char
  text_apart : EndsWord text
  text_oneLine : '\n' ∉ text

/-- The line of a symbol: its name and its address. -/
structure Symbol where
  name : String
  isWord : IsWord name.toList
  gap : Space
  place : AddressDigits

/-- Everything that is printed, and whether a line feed ends the blank line at
the end. -/
structure Printout where
  instructions : List Instruction
  symbols : List Symbol
  blank : List Char
  blank_gap : IsGap blank
  blank_oneLine : '\n' ∉ blank
  closed : Bool

def CodeWord.line (w : CodeWord) : List Char := w.gap.chars ++ w.chars

namespace Instruction

variable (e : Instruction)

/-- The field in front, of section and address. -/
def field : List Char := [e.high, e.low, ':'] ++ e.place.digits

/-- The line up to the source text. -/
def front : List Char :=
  e.field ++ (e.code.flatMap CodeWord.line ++ (e.gap.chars ++ lineMark e.row))

def line : List Char := e.front ++ e.text

end Instruction

namespace Symbol

variable (s : Symbol)

def field : List Char := ['A', ':'] ++ s.place.digits

def line : List Char := s.name.toList ++ (s.gap.chars ++ s.field)

end Symbol

/-- The line in front of the symbols. -/
def headerLine : List Char := "Symbols by name:".toList

def Printout.lines (p : Printout) : List (List Char) :=
  p.instructions.map Instruction.line ++ headerLine :: p.symbols.map Symbol.line

/-- The text of a listing. -/
def Printout.text (p : Printout) : List Char :=
  ended p.lines ++ (p.blank ++ if p.closed then ['\n'] else [])

/-! ## The words of a line -/

theorem words_code {rest : List Char} (h : EndsWord rest) (code : List CodeWord) :
    words (code.flatMap CodeWord.line ++ rest) = code.map CodeWord.chars ++ words rest ∧
      EndsWord (code.flatMap CodeWord.line ++ rest) := by
  induction code with
  | nil => exact ⟨rfl, h⟩
  | cons w code ih =>
    have hline : (w :: code).flatMap CodeWord.line ++ rest =
        w.gap.chars ++ (w.chars ++ (code.flatMap CodeWord.line ++ rest)) := by
      simp [CodeWord.line]
    rw [hline]
    refine ⟨?_, w.gap.blank.endsWord_append w.gap.ne_nil _⟩
    rw [words_gap_append w.gap.blank, words_word_append w.isWord ih.2, ih.1]
    rfl

theorem Instruction.isWord_field (e : Instruction) : IsWord e.field := by
  refine e.place.isWord_append (List.forall_mem_cons.2 ⟨?_, List.forall_mem_cons.2 ⟨?_, ?_⟩⟩)
  · exact not_blank_of_isHexDigit e.high_hex
  · exact not_blank_of_isHexDigit e.low_hex
  · exact List.forall_mem_singleton.2 rfl

theorem Symbol.isWord_field (s : Symbol) : IsWord s.field :=
  s.place.isWord_append (List.forall_mem_cons.2 ⟨rfl, List.forall_mem_singleton.2 rfl⟩)

/-- The words of the line of an instruction: its field, its code, its line
mark and the words of the text behind it. -/
theorem words_instruction (e : Instruction) {text : List Char} (h : EndsWord text) :
    words (e.front ++ text) =
      e.field :: (e.code.map CodeWord.chars ++ lineMark e.row :: words text) := by
  have hmark : EndsWord (e.gap.chars ++ (lineMark e.row ++ text)) :=
    e.gap.blank.endsWord_append e.gap.ne_nil _
  obtain ⟨hcode, hends⟩ := words_code hmark e.code
  have hline : e.front ++ text = e.field ++
      (e.code.flatMap CodeWord.line ++ (e.gap.chars ++ (lineMark e.row ++ text))) := by
    simp [Instruction.front]
  rw [hline, words_word_append e.isWord_field hends, hcode, words_gap_append e.gap.blank,
    words_word_append (isWord_lineMark e.row) h]

theorem words_symbol (s : Symbol) : words s.line = [s.name.toList, s.field] := by
  have hends : EndsWord (s.gap.chars ++ s.field) :=
    s.gap.blank.endsWord_append s.gap.ne_nil _
  have hnothing : EndsWord [] := fun c hc => nomatch hc
  have hlast := words_word_append s.isWord_field hnothing
  rw [List.append_nil, words_nil] at hlast
  rw [Symbol.line, words_word_append s.isWord hends, words_gap_append s.gap.blank, hlast]

/-! ## Reading a line -/

/-- A line of at least three words says what its field and its first line mark
say. -/
theorem codeLine?_of_words {line field mark : List Char} {later : List (List Char)}
    {address : UInt32} (hwords : words line = field :: later) (hlength : 2 ≤ later.length)
    (hfield : codeField? field = some address) (hmark : later.find? isLineMark = some mark) :
    codeLine? line = (lineNumber? mark).map (address, ·) := by
  match later, hlength with
  | w₁ :: w₂ :: rest, _ =>
    unfold codeLine?
    rw [hwords]
    simp only [hfield, hmark, Option.getD_some]

theorem codeLine?_instruction (e : Instruction) {text : List Char} (h : EndsWord text) :
    codeLine? (e.front ++ text) = some (e.place.address, e.row) := by
  have hfield : codeField? e.field = some e.place.address := by
    show codeField? (e.high :: e.low :: ':' :: e.place.digits) = _
    rw [codeField?, e.high_hex, e.low_hex]
    exact e.place.address?_digits
  have hcode : (e.code.map CodeWord.chars).find? isLineMark = none := by
    rw [List.find?_eq_none]
    intro chars hchars
    obtain ⟨w, -, rfl⟩ := List.mem_map.1 hchars
    intro hmark
    obtain ⟨digits, hne, hdigits, heq⟩ := (isLineMark_iff _).1 hmark
    exact w.notMark digits hne hdigits heq
  have hmark : (e.code.map CodeWord.chars ++ lineMark e.row :: words text).find? isLineMark =
      some (lineMark e.row) := by
    rw [List.find?_append, hcode, Option.none_or,
      List.find?_cons_of_pos (isLineMark_lineMark e.row)]
  have hlength : 2 ≤ (e.code.map CodeWord.chars ++ lineMark e.row :: words text).length := by
    have hcount := List.length_pos_iff.2 e.code_ne_nil
    rw [List.length_append, List.length_map, List.length_cons]
    omega
  rw [codeLine?_of_words (words_instruction e h) hlength hfield hmark, lineNumber?_lineMark]
  rfl

theorem symbolLine?_symbol (s : Symbol) : symbolLine? s.line = some (s.name, s.place.address) := by
  have hfield : symbolField? s.field = some s.place.address := s.place.address?_digits
  have hfind : [s.field].findSome? symbolField? = some s.place.address := by
    rw [List.findSome?_cons, hfield]
  unfold symbolLine?
  rw [words_symbol]
  simp only [hfind, Option.map_some, String.ofList_toList]

/-! ## Reading line by line -/

variable (l : Listing)

/-- The line of an instruction does not open the table of symbols, since it
begins with a hexadecimal digit. -/
theorem opensSymbols_instruction (e : Instruction) (text : List Char) :
    opensSymbols (e.front ++ text) = false := by
  have hhead : ∀ c ∈ (e.front ++ text).head?, isBlank c = false := by
    intro c hc
    cases hc
    exact not_blank_of_isHexDigit e.high_hex
  have hne : ('S' == e.high) = false := by
    rw [beq_eq_false_iff_ne]
    intro heq
    exact absurd (heq ▸ e.high_hex) (by decide)
  have hheader : symbolsHeader = 'S' :: symbolsHeader.tail := by decide
  have hfront : e.front ++ text = e.high :: (e.front ++ text).tail := rfl
  rw [opensSymbols, trimLeft_of_head hhead, hheader, hfront, List.isPrefixOf_cons_cons, hne,
    Bool.false_and]

/-- Reading the line of an instruction adds its address and its row. -/
theorem feed_instruction (e : Instruction) {text : List Char} (h : EndsWord text) :
    Reader.feed { mode := .code, listing := l } (String.ofList (e.front ++ text)) =
      { mode := .code,
        listing := { l with lines := l.lines.insert e.place.address e.row } } := by
  rw [Reader.feed, String.toList_ofList]
  simp only [opensSymbols_instruction, codeLine?_instruction e h]
  rfl

theorem feed_header :
    Reader.feed { mode := .code, listing := l } (String.ofList headerLine) =
      { mode := .symbols, listing := l } := by
  have hopens : opensSymbols headerLine = true := by decide
  rw [Reader.feed, String.toList_ofList]
  simp only [hopens, if_true]

/-- Reading the line of a symbol adds its name and its address. -/
theorem feed_symbol (s : Symbol) :
    Reader.feed { mode := .symbols, listing := l } (String.ofList s.line) =
      { mode := .symbols,
        listing := { l with symbols := l.symbols.insert s.name s.place.address } } := by
  have hblank : isBlankLine s.line = false := by
    obtain ⟨c, cs, hcs⟩ := List.exists_cons_of_ne_nil s.isWord.ne_nil
    rw [Symbol.line, hcs]
    show (isBlank c && _) = false
    rw [s.isWord.solid c (hcs ▸ List.mem_cons_self), Bool.false_and]
  rw [Reader.feed, String.toList_ofList]
  simp only [hblank, symbolLine?_symbol]
  rfl

/-- Reading white space ends the symbols. -/
theorem feed_blank {blank : List Char} (h : IsGap blank) :
    Reader.feed { mode := .symbols, listing := l } (String.ofList blank) =
      { mode := .code, listing := l } := by
  have hblank : isBlankLine blank = true := List.all_eq_true.2 h
  rw [Reader.feed, String.toList_ofList]
  simp only [hblank, if_true]

/-- The lines of instructions are read as their addresses and rows, one after
the other. -/
theorem foldl_feed_instructions (es : List Instruction) :
    ((es.map Instruction.line).map fun line => String.ofList (chomp line)).foldl Reader.feed
        { mode := .code, listing := l } =
      { mode := .code,
        listing := { l with
          lines := es.foldl (fun lines e => lines.insert e.place.address e.row) l.lines } } := by
  induction es generalizing l with
  | nil => rfl
  | cons e es ih =>
    have hchomp : chomp e.line = e.front ++ chomp e.text := by
      have hfront : e.front = e.field ++ (e.code.flatMap CodeWord.line ++ e.gap.chars) ++
          lineMark e.row := by
        simp [Instruction.front]
      refine chomp_append ?_ e.text
      rw [hfront]
      exact (isWord_lineMark e.row).getLast?_append_ne _ rfl
    rw [List.map_cons, List.map_cons, List.foldl_cons, hchomp,
      feed_instruction l e e.text_apart.chomp, ih]
    rfl

/-- The lines of symbols are read as their names and addresses, one after the
other. -/
theorem foldl_feed_symbols (ss : List Symbol) :
    ((ss.map Symbol.line).map fun line => String.ofList (chomp line)).foldl Reader.feed
        { mode := .symbols, listing := l } =
      { mode := .symbols,
        listing := { l with
          symbols := ss.foldl (fun symbols s => symbols.insert s.name s.place.address)
            l.symbols } } := by
  induction ss generalizing l with
  | nil => rfl
  | cons s ss ih =>
    have hchomp : chomp s.line = s.line := by
      have hline : s.line = s.name.toList ++ s.gap.chars ++ s.field := by
        simp [Symbol.line]
      refine if_neg ?_
      rw [hline]
      exact s.isWord_field.getLast?_append_ne _ rfl
    rw [List.map_cons, List.map_cons, List.foldl_cons, hchomp, feed_symbol, ih]
    rfl

/-- What was inserted last for a key is found. -/
theorem getElem?_foldl_insert {α κ β : Type} [Ord κ] [Std.TransOrd κ] [Std.LawfulEqOrd κ]
    [DecidableEq κ] (key : α → κ) (value : α → β) (items : List α)
    (m : Std.ExtTreeMap κ β) (k : κ) :
    (items.foldl (fun m item => m.insert (key item) (value item)) m)[k]? =
      ((items.filter (key · = k)).getLast?.map value).or m[k]? := by
  induction items generalizing m with
  | nil => rfl
  | cons item items ih =>
    rw [List.foldl_cons, ih, Std.ExtTreeMap.getElem?_insert]
    by_cases hkey : key item = k
    · rw [if_pos (Std.LawfulEqOrd.compare_eq_iff_eq.2 hkey),
        List.filter_cons_of_pos (by simpa using hkey), List.getLast?_cons]
      cases (items.filter (key · = k)).getLast? with
      | none => rfl
      | some last => rfl
    · rw [if_neg (mt Std.LawfulEqOrd.compare_eq_iff_eq.1 hkey),
        List.filter_cons_of_neg (by simpa using hkey)]

/-! ## The whole listing -/

theorem Instruction.line_oneLine (e : Instruction) : '\n' ∉ e.line := by
  have hcode : '\n' ∉ e.code.flatMap CodeWord.line := by
    intro h
    obtain ⟨w, -, hw⟩ := List.mem_flatMap.1 h
    obtain hgap | hword := List.mem_append.1 hw
    · exact w.gap.oneLine hgap
    · exact w.isWord.not_mem rfl hword
  simp only [line, front, List.mem_append, not_or]
  exact ⟨⟨e.isWord_field.not_mem rfl, hcode, e.gap.oneLine, (isWord_lineMark e.row).not_mem rfl⟩,
    e.text_oneLine⟩

theorem Symbol.line_oneLine (s : Symbol) : '\n' ∉ s.line := by
  simp only [line, List.mem_append, not_or]
  exact ⟨s.isWord.not_mem rfl, s.gap.oneLine, s.isWord_field.not_mem rfl⟩

theorem Printout.lines_oneLine (p : Printout) : ∀ line ∈ p.lines, '\n' ∉ line := by
  intro line hline
  rw [lines, List.mem_append, List.mem_cons] at hline
  obtain hline | rfl | hline := hline
  · obtain ⟨e, -, rfl⟩ := List.mem_map.1 hline
    exact e.line_oneLine
  · decide
  · obtain ⟨s, -, rfl⟩ := List.mem_map.1 hline
    exact s.line_oneLine

/-- The lines that are read from a printed listing, whether or not a line feed
ends the last. -/
theorem Printout.readableLines_text (p : Printout) :
    ∃ last : List (List Char), (∀ line ∈ last, IsGap line) ∧ last.length ≤ 1 ∧
      readableLines (Contents.lines { bytes := encodeUtf8 p.text }) =
        (p.lines.map fun line => String.ofList (chomp line)) ++ last.map String.ofList := by
  cases hclosed : p.closed with
  | true =>
    have htext : p.text = ended (p.lines ++ [p.blank]) ++ [] := by
      simp [text, ended, hclosed]
    have hlines : ∀ line ∈ p.lines ++ [p.blank], '\n' ∉ line := by
      intro line hline
      obtain hline | hline := List.mem_append.1 hline
      · exact p.lines_oneLine line hline
      · exact List.mem_singleton.1 hline ▸ p.blank_oneLine
    refine ⟨[chomp p.blank], ?_, Nat.le_refl 1, ?_⟩
    · intro line hline
      exact List.mem_singleton.1 hline ▸ p.blank_gap.chomp
    · rw [htext, readableLines_ended hlines (List.not_mem_nil)]
      simp
  | false =>
    have htext : p.text = ended p.lines ++ p.blank := by
      simp [text, hclosed]
    refine ⟨if p.blank = [] then [] else [p.blank], ?_, ?_, ?_⟩
    · intro line hline
      split at hline
      · cases hline
      · exact List.mem_singleton.1 hline ▸ p.blank_gap
    · split <;> simp
    · rw [htext, readableLines_ended p.lines_oneLine p.blank_oneLine]
      simp

/-- A listing that was printed holds each printed address with the row that was
printed last for it, each printed name with the address that was printed last
for it, and nothing else. -/
theorem printed_listing_reads_back (p : Printout) :
    let listing := ofLines (readableLines (Contents.lines { bytes := encodeUtf8 p.text }))
    (∀ address, listing.lineFor address =
      (p.instructions.filter (·.place.address = address)).getLast?.map (·.row)) ∧
    ∀ name, listing.lookupSymbol name =
      (p.symbols.filter (·.name = name)).getLast?.map (·.place.address) := by
  intro listing
  let lines := p.instructions.foldl (fun lines e => lines.insert e.place.address e.row)
    (∅ : Std.ExtTreeMap UInt32 UInt32)
  let symbols := p.symbols.foldl (fun symbols s => symbols.insert s.name s.place.address)
    (∅ : Std.ExtTreeMap String UInt32)
  have hlisting : listing = { lines, symbols } := by
    obtain ⟨last, hgap, hshort, hread⟩ := p.readableLines_text
    have hheader : chomp headerLine = headerLine := if_neg (by decide)
    have hlast : ∀ l : Listing, ((last.map String.ofList).foldl Reader.feed
        { mode := .symbols, listing := l }).listing = l := by
      intro l
      match last, hshort with
      | [], _ => rfl
      | [blank], _ =>
        have hfeed := feed_blank l (hgap blank List.mem_cons_self)
        rw [List.map_singleton, List.foldl_cons, List.foldl_nil, hfeed]
    show ofLines _ = _
    rw [ofLines, hread, List.foldl_append, Printout.lines, List.map_append, List.foldl_append,
      foldl_feed_instructions, List.map_cons, List.foldl_cons, hheader, feed_header,
      foldl_feed_symbols, hlast]
  rw [hlisting]
  constructor
  · intro address
    rw [lineFor, getElem?_foldl_insert]
    simp
  · intro name
    rw [lookupSymbol, getElem?_foldl_insert]
    simp

/-! ## A listing that looks like another one -/

/-- One blank. -/
def Space.single : Space where
  chars := [' ']
  blank := List.all_eq_true.1 (by decide)
  ne_nil := by decide
  oneLine := by decide

theorem isWord_of_all {cs : List Char} (hne : cs ≠ [])
    (hsolid : (cs.all fun c => !isBlank c) = true) : IsWord cs :=
  ⟨hne, fun c hc => by simpa using List.all_eq_true.1 hsolid c hc⟩

/-- A word of code behind a blank. -/
def CodeWord.ofChars (chars : List Char) (isWord : IsWord chars)
    (hmark : isLineMark chars = false) : CodeWord where
  gap := .single
  chars
  isWord
  notMark := by
    rintro digits hdigits hall rfl
    exact Bool.false_ne_true (hmark.symm.trans ((isLineMark_iff _).2 ⟨digits, hdigits, hall, rfl⟩))

/-- An instruction whose source text looks like an instruction, another one at
the same address whose text looks like the header, and a third one that has
a colon for code.  Then names that look like an address and like the header. -/
def misleading : Printout where
  instructions := [
    { high := '0', low := '0', high_hex := by decide, low_hex := by decide
      place := ⟨0xABCD, "0000ABCD".toList, by decide⟩
      code := [.ofChars "4E71".toList (isWord_of_all (by decide) (by decide)) (by decide)]
      code_ne_nil := by decide
      gap := .single
      row := 4
      text := " 00:00001234 4E71 9:".toList
      text_apart := by rintro c ⟨⟩; rfl
      text_oneLine := by decide },
    { high := 'f', low := 'F', high_hex := by decide, low_hex := by decide
      place := ⟨0xABCD, "0000aBcD".toList, by decide⟩
      code := [.ofChars "4E71".toList (isWord_of_all (by decide) (by decide)) (by decide),
        .ofChars "4e75:".toList (isWord_of_all (by decide) (by decide)) (by decide)]
      code_ne_nil := by decide
      gap := .single
      row := 12
      text := " Symbols by name:".toList
      text_apart := by rintro c ⟨⟩; rfl
      text_oneLine := by decide },
    { high := 'A', low := '1', high_hex := by decide, low_hex := by decide
      place := ⟨0x10, "00000010".toList, by decide⟩
      code := [.ofChars ":".toList (isWord_of_all (by decide) (by decide)) (by decide)]
      code_ne_nil := by decide
      gap := .single
      row := 7
      text := []
      text_apart := by rintro c ⟨⟩
      text_oneLine := by decide }]
  symbols := [
    { name := "A:", isWord := isWord_of_all (by decide) (by decide), gap := .single
      place := ⟨0xABCD, "0000abcd".toList, by decide⟩ },
    { name := "Symbols", isWord := isWord_of_all (by decide) (by decide), gap := .single
      place := ⟨0x10, "00000010".toList, by decide⟩ },
    { name := "A:", isWord := isWord_of_all (by decide) (by decide), gap := .single
      place := ⟨0xFF, "000000FF".toList, by decide⟩ }]
  blank := [' ']
  blank_gap := List.all_eq_true.1 (by decide)
  blank_oneLine := by decide
  closed := true

theorem misleading_listing_reads_back :
    let listing := ofLines (readableLines (Contents.lines { bytes := encodeUtf8 misleading.text }))
    String.ofList misleading.text =
      "00:0000ABCD 4E71 4: 00:00001234 4E71 9:\n" ++
      "fF:0000aBcD 4E71 4e75: 12: Symbols by name:\n" ++
      "A1:00000010 : 7:\n" ++
      "Symbols by name:\n" ++
      "A: A:0000abcd\n" ++
      "Symbols A:00000010\n" ++
      "A: A:000000FF\n" ++
      " \n" ∧
    listing.lineFor 0xABCD = some 12 ∧ listing.lineFor 0x10 = some 7 ∧
    listing.lineFor 0x1234 = none ∧
    listing.lookupSymbol "A:" = some 0xFF ∧ listing.lookupSymbol "Symbols" = some 0x10 ∧
    listing.lookupSymbol "late" = none := by
  intro listing
  obtain ⟨hlines, hsymbols⟩ := printed_listing_reads_back misleading
  refine ⟨by decide +kernel, (hlines 0xABCD).trans ?_, (hlines 0x10).trans ?_,
    (hlines 0x1234).trans ?_, (hsymbols "A:").trans ?_, (hsymbols "Symbols").trans ?_,
    (hsymbols "late").trans ?_⟩
  all_goals decide +kernel

end Monitor68.Listing
