import Mathlib.Data.List.TakeWhile
import Monitor68.Proofs.Command.Opening
import Monitor68.Proofs.Inspect.Names
import Monitor68.Proofs.Session.Refreshing
import Monitor68.Proofs.Text.Hexadecimal

/-!
# The command that shows values in memory

Each argument is an address in hexadecimal, and behind a colon the name of an
encoding if one is wanted.  `AddressText` and `WatchText` are the grammar of
the arguments.  `readWatch_eq_ok_iff` says that an argument is read exactly if
it is in the grammar, so what is not in it is malformed.

The command reads all of its arguments before it prints anything
(`readWatches_cases`).  If they are in order, each becomes a variable that is
named for its place and brought up to date, and a row for each is printed
(`lines_addWatches`).  Otherwise nothing is printed at all.
-/

namespace Monitor68.Command

open Text Numeral Files

/-! ## Arguments -/

/-- The marks that may stand in front of an address. -/
def addressMarks : List (List Char) := ["".toList, "0x".toList, "0X".toList, "$".toList]

/-- A text spells a number as an address: in hexadecimal behind a mark. -/
inductive AddressText : List Char → Nat → Prop where
  | intro {mark numeral : List Char} {n : Nat} (mark_mem : mark ∈ addressMarks)
      (hex : HexNumeral numeral n) : AddressText (mark ++ numeral) n

/-- An argument asks for an address in an encoding.  Without a colon the encoding
is that of an unsigned byte; white space around its name does not matter. -/
inductive WatchText : List Char → UInt32 → Encoding → Prop where
  | plain {text : List Char} {address : UInt32} (spells : AddressText text address.toNat) :
      WatchText text address .unsignedByte
  | encoded {text before name after : List Char} {address : UInt32} {encoding : Encoding}
      (spells : AddressText text address.toNat) (before_gap : IsGap before)
      (after_gap : IsGap after) (named : encoding.IsName name) :
      WatchText (text ++ ':' :: (before ++ name ++ after)) address encoding

section Arguments

variable {numeral mark text rest word : List Char} {n : Nat}

theorem mem_of_numeral (h : HexNumeral numeral n) {c : Char} (hc : c ∈ numeral) :
    c = '+' ∨ c.toUpper ∈ hexadecimals := by
  cases h with
  | plain h => exact .inr (mem_of_denotes h.denotes c hc)
  | signed h =>
    obtain rfl | hc := List.mem_cons.1 hc
    · exact .inl rfl
    · exact .inr (mem_of_denotes h.denotes c hc)

/-- A mark is taken off a numeral, and no part of the numeral is taken for one. -/
theorem addressDigits_of_numeral (hmark : mark ∈ addressMarks) (h : HexNumeral numeral n) :
    addressDigits (mark ++ numeral) = numeral := by
  have hmember : ∀ c, ¬ (c = '+' ∨ c.toUpper ∈ hexadecimals) → c ∉ numeral :=
    fun c hother hc => hother (mem_of_numeral h hc)
  simp only [addressMarks, List.mem_cons, List.not_mem_nil, or_false] at hmark
  rcases hmark with rfl | rfl | rfl | rfl
  · show addressDigits numeral = numeral
    unfold addressDigits
    split
    · exact absurd (by simp) (hmember 'x' (by decide))
    · exact absurd (by simp) (hmember 'X' (by decide))
    · exact absurd (by simp) (hmember '$' (by decide))
    · rfl
  · rfl
  · rfl
  · rfl

/-- What stands before the digits that are read is a mark. -/
theorem exists_mark (word : List Char) :
    ∃ mark ∈ addressMarks, word = mark ++ addressDigits word := by
  unfold addressDigits
  split
  · exact ⟨"0x".toList, by decide, rfl⟩
  · exact ⟨"0X".toList, by decide, rfl⟩
  · exact ⟨"$".toList, by decide, rfl⟩
  · exact ⟨"".toList, by decide, rfl⟩

theorem readAddress_eq_ok_iff {address : UInt32} :
    readAddress word = .ok address ↔ AddressText word address.toNat := by
  constructor
  · intro h
    rw [readAddress] at h
    cases hread : readWord 16 (addressDigits word) with
    | error fault => rw [hread] at h; cases h
    | ok read =>
      rw [hread] at h
      cases h
      obtain ⟨mark, hmark, hword⟩ := exists_mark word
      rw [hword]
      exact .intro hmark (readWord_eq_ok_iff.1 hread)
  · rintro ⟨hmark, hnumeral⟩
    rw [readAddress, addressDigits_of_numeral hmark hnumeral, readWord_eq_ok_iff.2 hnumeral]

/-- An address of more than 32 bits is too large. -/
theorem readAddress_of_large (h : AddressText word n) (hlarge : UInt32.size ≤ n) :
    readAddress word = .error
      { message := "Invalid address '" ++ String.ofList word ++ "'"
        causes := ["number too large to fit in target type"] } := by
  obtain ⟨hmark, hnumeral⟩ := h
  rw [readAddress, addressDigits_of_numeral hmark hnumeral, readWord_of_large hnumeral hlarge]
  rfl

/-- No colon stands in an address. -/
theorem AddressText.no_colon (h : AddressText text n) : ∀ c ∈ text, (c != ':') = true := by
  have hmark : ∀ mark ∈ addressMarks, mark.all (· != ':') = true := by decide
  obtain ⟨hmem, hnumeral⟩ := h
  intro c hc
  rcases List.mem_append.1 hc with hc | hc
  · exact List.all_eq_true.1 (hmark _ hmem) c hc
  · refine bne_iff_ne.2 ?_
    rintro rfl
    exact absurd (mem_of_numeral hnumeral hc) (by decide)

/-- An argument is cut at its first colon. -/
theorem cut_at_colon (htext : ∀ c ∈ text, (c != ':') = true) (rest : List Char)
    (hrest : ∀ c ∈ rest.head?, c = ':') :
    (text ++ rest).takeWhile (· != ':') = text ∧ (text ++ rest).dropWhile (· != ':') = rest := by
  rw [List.takeWhile_append_of_pos htext, List.dropWhile_append_of_pos htext]
  cases rest with
  | nil => exact ⟨List.append_nil text, rfl⟩
  | cons c rest =>
    obtain rfl := hrest c rfl
    exact ⟨List.append_nil text, rfl⟩

/-- An argument is read exactly if it is in the grammar, and as what it asks
for. -/
theorem readWatch_eq_ok_iff {word : String} {address : UInt32} {encoding : Encoding} :
    readWatch word = .ok (address, encoding) ↔ WatchText word.toList address encoding := by
  constructor
  · intro h
    have hword := List.takeWhile_append_dropWhile (p := (· != ':')) (l := word.toList)
    have hcolon := List.head?_dropWhile_not (· != ':') word.toList
    rw [readWatch] at h
    rw [← hword]
    generalize word.toList.takeWhile (· != ':') = text at *
    generalize word.toList.dropWhile (· != ':') = rest at *
    cases hread : readAddress text with
    | error failure => rw [hread] at h; cases h
    | ok found =>
      rw [hread] at h
      have hspells := readAddress_eq_ok_iff.1 hread
      cases rest with
      | nil =>
        cases h
        rw [List.append_nil]
        exact .plain hspells
      | cons c name =>
        obtain rfl : c = ':' := by simpa using hcolon
        cases hname : Encoding.ofName (String.ofList name) with
        | error unknown => simp only [hname] at h; cases h
        | ok named =>
          simp only [hname] at h
          cases h
          obtain ⟨before, label, after, hsplit, hbefore, hafter, hnamed⟩ :=
            (Encoding.ofName_eq_ok_iff _ _).1 hname
          rw [String.toList_ofList] at hsplit
          rw [hsplit]
          exact .encoded hspells hbefore hafter hnamed
  · intro h
    rw [readWatch]
    generalize word.toList = cs at *
    cases h with
    | plain spells =>
      obtain ⟨htake, hdrop⟩ := cut_at_colon spells.no_colon [] nofun
      rw [List.append_nil] at htake hdrop
      rw [htake, hdrop, readAddress_eq_ok_iff.2 spells]
    | encoded spells before_gap after_gap named =>
      obtain ⟨htake, hdrop⟩ := cut_at_colon spells.no_colon (':' :: _) fun c hc =>
        (Option.mem_some_iff.1 hc).symm
      have hname := (Encoding.ofName_eq_ok_iff (String.ofList _) encoding).2
        ⟨_, _, _, String.toList_ofList, before_gap, after_gap, named⟩
      rw [htake, hdrop, readAddress_eq_ok_iff.2 spells]
      simp only [hname]

/-- Whatever stands behind the colon, an address of more than 32 bits is too
large. -/
theorem readWatch_of_large (h : AddressText text n) (hlarge : UInt32.size ≤ n)
    (hrest : ∀ c ∈ rest.head?, c = ':') :
    readWatch (String.ofList (text ++ rest)) = .error
      { message := "Invalid address '" ++ String.ofList text ++ "'"
        causes := ["number too large to fit in target type"] } := by
  rw [readWatch, String.toList_ofList]
  rw [(cut_at_colon h.no_colon rest hrest).1, readAddress_of_large h hlarge]

end Arguments

/-- The arguments are read one by one, or the command fails as one of them
does. -/
theorem readWatches_cases (words : List String) :
    (∃ ws, readWatches words = .ok ws ∧ words.map readWatch = ws.map .ok) ∨
      ∃ word ∈ words, ∃ failure, readWatch word = .error failure ∧
        readWatches words = .error failure := by
  induction words with
  | nil => exact .inl ⟨[], rfl, rfl⟩
  | cons word rest ih =>
    rw [readWatches, List.map_cons]
    cases hword : readWatch word with
    | error failure => exact .inr ⟨word, List.mem_cons_self, failure, hword, rfl⟩
    | ok w =>
      obtain ⟨ws, hread, hws⟩ | ⟨other, hmem, failure, hother, hread⟩ := ih
      · exact .inl ⟨w :: ws, by rw [hread]; rfl, by rw [hws]; rfl⟩
      · exact .inr ⟨other, List.mem_cons_of_mem word hmem, failure, hother, by rw [hread]; rfl⟩

/-- An argument that was read is in the grammar, and what it asks for stands in
its place. -/
theorem getElem?_read {words : List String} {ws : List (UInt32 × Encoding)}
    (h : words.map readWatch = ws.map .ok) {i : Nat} {word : String}
    (hi : words[i]? = some word) :
    ∃ address encoding, WatchText word.toList address encoding ∧
      ws[i]? = some (address, encoding) := by
  have hplace := congrArg (·[i]?) h
  simp only [List.getElem?_map, hi, Option.map_some] at hplace
  obtain ⟨⟨address, encoding⟩, hw, hread⟩ := Option.map_eq_some_iff.1 hplace.symm
  exact ⟨address, encoding, readWatch_eq_ok_iff.1 hread.symm, hw⟩

/-- An argument asks for one thing only. -/
theorem WatchText.unique {cs : List Char} {address address' : UInt32}
    {encoding encoding' : Encoding} (h : WatchText cs address encoding)
    (h' : WatchText cs address' encoding') : (address, encoding) = (address', encoding') := by
  rw [← String.toList_ofList (l := cs)] at h h'
  exact Except.ok.inj ((readWatch_eq_ok_iff.2 h).symm.trans (readWatch_eq_ok_iff.2 h'))

/-! ## Rows -/

/-- What a variable is apart from its id and its value. -/
def asked (v : Watch) : String × UInt32 × Encoding := (v.name, v.address, v.encoding)

/-- The row about a variable, with the text that is shown for its value. -/
def rowText (name : String) (address : UInt32) (encoding : Encoding) (text : String) : String :=
  Numeral.padRight 12 name ++ " 0x" ++ Numeral.addressText address ++ " " ++
    Numeral.padRight 24 encoding.label ++ " " ++ text

theorem engine_addWatches (s : Session Simulator) (ws : List (UInt32 × Encoding)) :
    (addWatches s ws).engine = s.engine := by
  induction ws generalizing s with
  | nil => rfl
  | cons w ws ih => exact ih { s with watches := (s.watches.add w.1 none w.2).2 }

/-- Variables that are added are named for their places in the list. -/
theorem asked_addWatches (s : Session Simulator) (ws : List (UInt32 × Encoding)) :
    (addWatches s ws).watches.watches.map asked = s.watches.watches.map asked ++
      (ws.zipIdx s.watches.watches.length).map fun (w, i) =>
        ("userdef_" ++ Numeral.decimal i, w.1, w.2) := by
  induction ws generalizing s with
  | nil => exact (List.append_nil _).symm
  | cons w ws ih =>
    refine (ih { s with watches := (s.watches.add w.1 none w.2).2 }).trans ?_
    simp only [WatchList.add, List.map_append, List.length_append, List.length_singleton,
      List.append_assoc]
    rfl

/-- A variable that is brought up to date is shown by its name, its address and
its encoding, with what memory gives. -/
theorem watchLine_refreshed (e : Simulator) :
    watchLine ∘ WatchList.refreshed e =
      (fun (name, address, encoding) =>
        rowText name address encoding (Decode.shown e address encoding)) ∘ asked := by
  funext v
  rw [← String.toList_inj]
  simp [watchLine, rowText, asked, WatchList.refreshed, shownAddress, variableWidth, nameWidth,
    toString]

theorem lines_addWatches {s : Session Simulator} (hnone : s.watches = {})
    (ws : List (UInt32 × Encoding)) :
    (addWatches s ws).refreshWatches.watches.watches.map watchLine =
      ws.zipIdx.map fun (w, i) =>
        rowText ("userdef_" ++ Numeral.decimal i) w.1 w.2 (Decode.shown s.engine w.1 w.2) := by
  have hasked : (addWatches s ws).watches.watches.map asked =
      ws.zipIdx.map fun (w, i) => ("userdef_" ++ Numeral.decimal i, w.1, w.2) := by
    rw [asked_addWatches, hnone]
    rfl
  show ((addWatches s ws).watches.watches.map
    (WatchList.refreshed (addWatches s ws).engine)).map watchLine = _
  rw [engine_addWatches, List.map_map, watchLine_refreshed, ← List.map_map, hasked,
    List.map_map]
  rfl

/-! ## The command -/

/-- A simulator with an image in its memory. -/
def holding (contents : Contents) : Simulator := { memory := imageMemory contents }

theorem perform_watch (files : FileSystem) (path? : Option String) (image : String)
    (words : List String) :
    perform files { settings := path?, command := .watch image words } =
      orFail (loadSettings files path?) fun settings =>
        orFail (openSession files settings image) fun s =>
          orFail (readWatches words) fun ws =>
            { lines := (addWatches s ws).refreshWatches.watches.watches.map watchLine } :=
  rfl

/-- With settings and an image that can be loaded, the command goes on to its
arguments. -/
theorem perform_watch_of_loadable {files : FileSystem} {path? : Option String} {image : String}
    {settings : Settings} {contents : Contents} (hconfigured : Configured files path? settings)
    (hloadable : Loadable files image contents) (words : List String) :
    perform files { settings := path?, command := .watch image words } =
      orFail (readWatches words) fun ws =>
        { lines := ws.zipIdx.map fun (w, i) =>
            rowText ("userdef_" ++ Numeral.decimal i) w.1 w.2
              (Decode.shown (holding contents) w.1 w.2) } := by
  obtain ⟨entry, s, hopen, hopened⟩ := openSession_of_loadable hloadable settings
  have hreads : SameReads s.engine (holding contents) := .of_memory hopened.memory
  rw [perform_watch, loadSettings_ok_iff.2 hconfigured, orFail, hopen, orFail]
  simp only [lines_addWatches hopened.watches, Decode.shown_congr hreads]

/-- An argument in the grammar is read as the address and the encoding that it
asks for, and an address of more than 32 bits is refused.  The command prints
a row for each argument, in their order and with the text of its value or of
its error, if all of them are in the grammar.  If any is not, nothing is
printed and the command fails. -/
theorem watch_command (files : FileSystem) (path? : Option String) (image : String)
    (words : List String) :
    (∀ word address encoding, readWatch word = .ok (address, encoding) ↔
      WatchText word.toList address encoding) ∧
    (∀ text n rest, AddressText text n → UInt32.size ≤ n → (∀ c ∈ rest.head?, c = ':') →
      readWatch (String.ofList (text ++ rest)) = .error
        { message := "Invalid address '" ++ String.ofList text ++ "'"
          causes := ["number too large to fit in target type"] }) ∧
    let report := perform files { settings := path?, command := .watch image words }
    ∀ settings contents, Configured files path? settings → Loadable files image contents →
      ((∀ word ∈ words, ∃ address encoding, WatchText word.toList address encoding) →
        report.code = 0 ∧ report.lines.length = words.length ∧
        ∀ (i : Nat) word address encoding, words[i]? = some word →
          WatchText word.toList address encoding →
          report.lines[i]? = some (rowText ("userdef_" ++ Numeral.decimal i) address encoding
            (match Decode.value (holding contents) address encoding with
              | .ok text => text
              | .error error => error.message))) ∧
      ((∃ word ∈ words, ¬ ∃ address encoding, WatchText word.toList address encoding) →
        report.output = "" ∧ report.code ≠ 0) := by
  refine ⟨fun word address encoding => readWatch_eq_ok_iff,
    fun text n rest h hlarge hrest => readWatch_of_large h hlarge hrest, ?_⟩
  intro report settings contents hconfigured hloadable
  have hreport : report = _ := perform_watch_of_loadable hconfigured hloadable words
  obtain ⟨ws, hread, hwords⟩ | ⟨word, hword, failure, hbad, hread⟩ := readWatches_cases words
  · rw [hread, orFail] at hreport
    refine ⟨fun _ => ⟨by rw [hreport]; rfl, ?_, ?_⟩, ?_⟩
    · have hlength := congrArg List.length hwords
      rw [List.length_map, List.length_map] at hlength
      rw [hreport, List.length_map, List.length_zipIdx, hlength]
    · intro i word address encoding hi htext
      obtain ⟨_, _, hasks, hw⟩ := getElem?_read hwords hi
      rw [hreport, List.getElem?_map, List.getElem?_zipIdx, hw, hasks.unique htext]
      simp only [Option.map_some, Nat.zero_add]
      rfl
    · rintro ⟨word, hword, hother⟩
      obtain ⟨i, hi⟩ := List.getElem?_of_mem hword
      obtain ⟨address, encoding, hasks, -⟩ := getElem?_read hwords hi
      exact absurd ⟨address, encoding, hasks⟩ hother
  · rw [hread, orFail] at hreport
    refine ⟨fun hall => ?_, fun _ => ⟨by rw [hreport]; rfl, by rw [hreport]; exact Nat.one_ne_zero⟩⟩
    obtain ⟨address, encoding, htext⟩ := hall word hword
    cases (readWatch_eq_ok_iff.2 htext).symm.trans hbad

/-- A program of two bytes. -/
def twoBytes : FileSystem where
  openFile
    | "a.h68" => .ok { bytes := encodeUtf8 "S1058000DEADEF\n".toList }
    | _ => .error .notFound
  isFile _ := true
  obstacle _ := none

theorem watch_twoBytes :
    let report := fun words =>
      perform twoBytes { settings := none, command := .watch "a.h68" words }
    (report ["0x0008000: Hex WORD ", "$8000", "fffffffe:u32"]).lines =
      ["userdef_0    0x00008000 Hex word                 DEAD",
        "userdef_1    0x00008000 Unsigned byte            222",
        "userdef_2    0xFFFFFFFE Unsigned long            invalid address"] ∧
    (report ["8000", "8000:u9"]).output = "" := by
  have hclean : ∀ line ∈ Contents.lines { bytes := encodeUtf8 "S1058000DEADEF\n".toList },
      Image.faultOf? 1 line = none := by decide +kernel
  have hloadable : Loadable twoBytes "a.h68" { bytes := encodeUtf8 "S1058000DEADEF\n".toList } :=
    ⟨rfl, fun line hline => (Image.faultOf?_eq_none_iff 1 line).1 (hclean line hline),
      by decide +kernel⟩
  intro report
  constructor
  · obtain ⟨hread, -, hperform⟩ := watch_command twoBytes none "a.h68"
      ["0x0008000: Hex WORD ", "$8000", "fffffffe:u32"]
    obtain ⟨hrows, -⟩ := hperform {} _ .default hloadable
    have hhex : WatchText "0x0008000: Hex WORD ".toList 0x8000 (.number .word .hex) :=
      (hread _ _ _).1 (by decide +kernel)
    have hplain : WatchText "$8000".toList 0x8000 .unsignedByte :=
      (hread _ _ _).1 (by decide +kernel)
    have hbeyond : WatchText "fffffffe:u32".toList 0xFFFFFFFE (.number .long .unsigned) :=
      (hread _ _ _).1 (by decide +kernel)
    obtain ⟨-, hlength, hrow⟩ := hrows (by
      simpa using ⟨⟨_, _, hhex⟩, ⟨_, _, hplain⟩, _, _, hbeyond⟩)
    refine List.ext_getElem? fun i => ?_
    match i with
    | 0 => rw [hrow 0 _ _ _ rfl hhex]; decide +kernel
    | 1 => rw [hrow 1 _ _ _ rfl hplain]; decide +kernel
    | 2 => rw [hrow 2 _ _ _ rfl hbeyond]; decide +kernel
    | i + 3 => exact List.getElem?_eq_none (by rw [hlength]; exact Nat.le_add_left 3 i)
  · obtain ⟨hread, -, hperform⟩ := watch_command twoBytes none "a.h68" ["8000", "8000:u9"]
    obtain ⟨-, hother⟩ := hperform {} _ .default hloadable
    refine (hother ⟨"8000:u9", by simp, ?_⟩).1
    rintro ⟨address, encoding, htext⟩
    have hrefused : readWatch "8000:u9" =
        .error { message := "unknown encoding 'u9'" } := by decide +kernel
    cases ((hread _ _ _).2 htext).symm.trans hrefused

end Monitor68.Command
