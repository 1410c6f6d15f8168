import Monitor68.Proofs.Text.Lines

/-!
# Streams as lists of raw lines

A raw line is a line of a stream together with the line feed that ends it;
the last one may lack it.  The raw lines of a stream put together are the
stream, so parts of a stream are lists of raw lines, and to take lines out
of a stream is to take them out of the list.

A file is read up to the first raw line that is no text.  If reading fails
on the way, the raw line it fails in is lost as well.
-/

namespace Monitor68.Text

/-- The lines of a stream with their line feeds. -/
def rawLines : List UInt8 → List (List UInt8)
  | [] => []
  | b :: rest =>
    if b = lineFeed then [b] :: rawLines rest
    else
      match rawLines rest with
      | [] => [[b]]
      | line :: lines => (b :: line) :: lines

/-- Whether a line feed ends a raw line. -/
def isEnded (raw : List UInt8) : Bool := raw.getLast? = some lineFeed

/-- The bytes of a raw line without its end. -/
def content (raw : List UInt8) : List UInt8 :=
  if isEnded raw then dropReturn raw.dropLast else raw

/-- The text of a raw line, if it is one. -/
def textOf (raw : List UInt8) : Option String := decodeUtf8 (content raw)

def isText (raw : List UInt8) : Bool := (textOf raw).isSome

/-- The texts among raw lines. -/
def texts (raws : List (List UInt8)) : List String := raws.filterMap textOf

/-- A stream without its lines that are no text. -/
def onlyText (bytes : List UInt8) : List UInt8 := ((rawLines bytes).filter isText).flatten

/-- A stream up to its last line feed. -/
def endedPart (bytes : List UInt8) : List UInt8 := ((rawLines bytes).filter isEnded).flatten

/-! ## Cutting -/

section Cut

variable {line bytes : List UInt8} {raws : List (List UInt8)}

theorem isEnded_concat (line : List UInt8) : isEnded (line ++ [lineFeed]) = true := by
  simp [isEnded]

theorem isEnded_of_not_mem (h : lineFeed ∉ bytes) : isEnded bytes = false := by
  refine decide_eq_false fun hlast => h ?_
  exact List.mem_of_getLast? hlast

@[simp] theorem content_concat (line : List UInt8) :
    content (line ++ [lineFeed]) = dropReturn line := by
  rw [content, isEnded_concat, if_pos rfl, List.dropLast_concat]

theorem content_of_not_mem (h : lineFeed ∉ bytes) : content bytes = bytes := by
  rw [content, isEnded_of_not_mem h, if_neg Bool.false_ne_true]

theorem flatten_rawLines (bytes : List UInt8) : (rawLines bytes).flatten = bytes := by
  induction bytes with
  | nil => rfl
  | cons b rest ih =>
    rw [rawLines]
    split
    · rw [List.flatten_cons, ih, List.singleton_append]
    · cases hraws : rawLines rest with
      | nil =>
        rw [hraws] at ih
        rw [← ih]
        rfl
      | cons line lines =>
        rw [hraws] at ih
        rw [← ih]
        rfl

theorem rawLines_append (h : lineFeed ∉ line) (rest : List UInt8) :
    rawLines (line ++ lineFeed :: rest) = (line ++ [lineFeed]) :: rawLines rest := by
  induction line with
  | nil => rw [List.nil_append, rawLines, if_pos rfl, List.nil_append]
  | cons b line ih =>
    rw [List.mem_cons, not_or] at h
    rw [List.cons_append, rawLines, if_neg (Ne.symm h.1), ih h.2]
    rfl

theorem rawLines_of_not_mem (h : lineFeed ∉ bytes) (hne : bytes ≠ []) :
    rawLines bytes = [bytes] := by
  induction bytes with
  | nil => exact absurd rfl hne
  | cons b rest ih =>
    rw [List.mem_cons, not_or] at h
    rw [rawLines, if_neg (Ne.symm h.1)]
    cases rest with
    | nil => rfl
    | cons c rest => rw [ih h.2 (List.cons_ne_nil c rest)]

/-- Lists of raw lines that a stream can be cut into: each line has its line feed
at its end only, and the last may have none. -/
inductive IsCut : List (List UInt8) → Prop where
  | nil : IsCut []
  | unended {bytes : List UInt8} : lineFeed ∉ bytes → bytes ≠ [] → IsCut [bytes]
  | cons {line : List UInt8} {raws : List (List UInt8)} :
      lineFeed ∉ line → IsCut raws → IsCut ((line ++ [lineFeed]) :: raws)

theorem isCut_rawLines (bytes : List UInt8) : IsCut (rawLines bytes) := by
  induction bytes with
  | nil => exact .nil
  | cons b rest ih =>
    rw [rawLines]
    split
    · rename_i hb
      have hcut := IsCut.cons (List.not_mem_nil : lineFeed ∉ []) ih
      exact hb ▸ hcut
    · rename_i hb
      generalize rawLines rest = raws at ih
      cases ih with
      | nil => exact .unended (by simpa using Ne.symm hb) (List.cons_ne_nil b [])
      | unended hbytes _ => exact .unended (by simp [Ne.symm hb, hbytes]) (List.cons_ne_nil _ _)
      | @cons line raws hline hraws =>
        have hlonger : lineFeed ∉ b :: line := by simp [Ne.symm hb, hline]
        have hcut := IsCut.cons hlonger hraws
        exact hcut

/-- A stream is cut in one way only. -/
theorem IsCut.rawLines_flatten (h : IsCut raws) : rawLines raws.flatten = raws := by
  induction h with
  | nil => rfl
  | unended hbytes hne => rw [List.flatten_singleton, rawLines_of_not_mem hbytes hne]
  | cons hline _ ih =>
    rw [List.flatten_cons, List.append_assoc, List.singleton_append, rawLines_append hline, ih]

/-- Lines can be taken out of a stream. -/
theorem IsCut.sublist (h : IsCut raws) {fewer : List (List UInt8)} (hfewer : fewer.Sublist raws) :
    IsCut fewer := by
  induction h generalizing fewer with
  | nil => exact List.sublist_nil.1 hfewer ▸ .nil
  | unended hbytes hne =>
    cases hfewer with
    | cons _ hnone => exact List.sublist_nil.1 hnone ▸ .nil
    | cons_cons _ hnone => exact List.sublist_nil.1 hnone ▸ .unended hbytes hne
  | cons hline _ ih =>
    cases hfewer with
    | cons _ hrest => exact ih hrest
    | cons_cons _ hrest => exact .cons hline (ih hrest)

theorem rawLines_onlyText (bytes : List UInt8) :
    rawLines (onlyText bytes) = (rawLines bytes).filter isText :=
  ((isCut_rawLines bytes).sublist List.filter_sublist).rawLines_flatten

theorem rawLines_endedPart (bytes : List UInt8) :
    rawLines (endedPart bytes) = (rawLines bytes).filter isEnded :=
  ((isCut_rawLines bytes).sublist List.filter_sublist).rawLines_flatten

end Cut

end Monitor68.Text

namespace Monitor68.Files

open Monitor68.Text

section Reading

variable {raws : List (List UInt8)}

/-- A line with its line feed is read first, whatever ends the reading. -/
theorem lines_append {line : List UInt8} (h : lineFeed ∉ line) (rest : List UInt8)
    (fault : Option FileError) :
    Contents.lines { bytes := line ++ lineFeed :: rest, fault } =
      decodeLine (dropReturn line) :: Contents.lines { bytes := rest, fault } := by
  rw [Contents.lines, Contents.lines, splitLines_append h]
  cases fault with
  | some fault => rfl
  | none => by_cases hlast : (splitLines rest).2 = [] <;> simp [hlast]

/-- A file without a fault is read as its raw lines. -/
theorem lines_of_isCut (h : IsCut raws) :
    Contents.lines { bytes := raws.flatten } = raws.map fun raw => decodeLine (content raw) := by
  induction h with
  | nil => simp [Contents.lines, splitLines_of_not_mem]
  | unended hbytes hne =>
    simp [Contents.lines, splitLines_of_not_mem hbytes, content_of_not_mem hbytes, hne]
  | cons hline _ ih =>
    rw [List.flatten_cons, List.append_assoc, List.singleton_append, lines_append hline, ih,
      List.map_cons, content_concat]

/-- A file with a fault is read as its raw lines up to the last line feed, and
then as the fault. -/
theorem lines_of_fault (h : IsCut raws) (fault : FileError) :
    Contents.lines { bytes := raws.flatten, fault := some fault } =
      ((raws.filter isEnded).map fun raw => decodeLine (content raw)) ++ [.error fault] := by
  induction h with
  | nil => simp [Contents.lines, splitLines_of_not_mem]
  | unended hbytes _ =>
    simp [Contents.lines, splitLines_of_not_mem hbytes, isEnded_of_not_mem hbytes]
  | cons hline _ ih =>
    rw [List.flatten_cons, List.append_assoc, List.singleton_append, lines_append hline, ih,
      List.filter_cons_of_pos (isEnded_concat _), List.map_cons, content_concat, List.cons_append]

/-- The readable lines of a file are the texts of its raw lines in front of the
first that is no text, whatever stands behind them. -/
theorem readableLines_raws (raws : List (List UInt8)) {rest : List (Except FileError String)}
    (hrest : readableLines rest = []) :
    readableLines ((raws.map fun raw => decodeLine (content raw)) ++ rest) =
      texts (raws.takeWhile isText) := by
  induction raws with
  | nil => exact hrest
  | cons raw raws ih =>
    rw [List.map_cons, List.cons_append, List.takeWhile_cons]
    cases htext : textOf raw with
    | none =>
      have hline : decodeLine (content raw) = .error .invalidUtf8 := by
        rw [decodeLine, show decodeUtf8 (content raw) = none from htext]
      rw [hline, isText, htext]
      rfl
    | some text =>
      have hline : decodeLine (content raw) = .ok text := by
        rw [decodeLine, show decodeUtf8 (content raw) = some text from htext]
      rw [hline, readableLines, ih, isText, htext]
      simp [texts, htext]

/-- A file is read up to the first line that is no text. -/
theorem readableLines_bytes (bytes : List UInt8) :
    readableLines (Contents.lines { bytes }) = texts ((rawLines bytes).takeWhile isText) := by
  have hnone : readableLines ([] : List (Except FileError String)) = [] := rfl
  have hlines := lines_of_isCut (isCut_rawLines bytes)
  rw [flatten_rawLines] at hlines
  rw [hlines, ← readableLines_raws (rawLines bytes) hnone, List.append_nil]

/-- A file that fails on the way is read as if it ended with its last line
feed. -/
theorem readableLines_fault (bytes : List UInt8) (fault : FileError) :
    readableLines (Contents.lines { bytes, fault := some fault }) =
      readableLines (Contents.lines { bytes := endedPart bytes }) := by
  have hnone : readableLines [.error fault] = [] := rfl
  have hlines := lines_of_fault (isCut_rawLines bytes) fault
  rw [flatten_rawLines] at hlines
  rw [hlines, readableLines_raws _ hnone, readableLines_bytes, rawLines_endedPart]

end Reading

end Monitor68.Files
