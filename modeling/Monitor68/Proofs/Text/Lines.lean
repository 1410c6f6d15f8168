import Monitor68.Files.Basic
import Monitor68.Proofs.Text.Words

/-!
# Texts put together from lines

A text whose lines each end in a line feed is read back from its UTF-8
bytes line by line.  What the reader takes for the end of a line is a byte,
and it can cut the bytes before it decodes them because no character but
the line feed has the byte of a line feed in its encoding.  A line gives
up one carriage return at its end.
-/

namespace Monitor68.Text

/-- The text without one carriage return at its end. -/
def chomp (cs : List Char) : List Char :=
  if cs.getLast? = some '\r' then cs.dropLast else cs

/-! ## Chomping -/

theorem mem_of_mem_chomp {cs : List Char} {c : Char} (h : c ∈ chomp cs) : c ∈ cs := by
  unfold chomp at h
  split at h
  · exact (List.dropLast_prefix cs).mem h
  · exact h

theorem IsGap.chomp {cs : List Char} (h : IsGap cs) : IsGap (chomp cs) :=
  fun c hc => h c (mem_of_mem_chomp hc)

/-- Behind a text that does not end in a carriage return, what comes last is
chomped. -/
theorem chomp_append {front : List Char} (h : front.getLast? ≠ some '\r') (back : List Char) :
    chomp (front ++ back) = front ++ chomp back := by
  cases hback : back with
  | nil => rw [List.append_nil, chomp, if_neg h, chomp, if_neg (by simp), List.append_nil]
  | cons c cs =>
    have hlast : (front ++ c :: cs).getLast? = (c :: cs).getLast? := by
      rw [List.getLast?_append, List.getLast?_cons, Option.some_or]
    have hdrop : (front ++ c :: cs).dropLast = front ++ (c :: cs).dropLast :=
      List.dropLast_append_of_ne_nil (List.cons_ne_nil c cs)
    unfold chomp
    rw [hlast, hdrop]
    split <;> rfl

theorem EndsWord.chomp {cs : List Char} (h : EndsWord cs) : EndsWord (chomp cs) := by
  unfold Text.chomp
  split
  · match cs with
    | [] | [_] => exact fun c hc => nomatch hc
    | c :: d :: rest => exact h
  · exact h

/-! ## Bytes of characters -/

theorem encodeUtf8_append (front back : List Char) :
    encodeUtf8 (front ++ back) = encodeUtf8 front ++ encodeUtf8 back :=
  List.flatMap_append

/-- The bytes of a character, by their number. -/
theorem utf8EncodeChar_cases (c : Char) :
    (c.toNat < 0x80 ∧ String.utf8EncodeChar c = [UInt8.ofNat c.toNat]) ∨
    (0x80 ≤ c.toNat ∧ c.toNat < 0x800 ∧ String.utf8EncodeChar c =
      [UInt8.ofNat (c.toNat / 64 + 192), UInt8.ofNat (c.toNat % 64 + 128)]) ∨
    (0x800 ≤ c.toNat ∧ c.toNat < 0x10000 ∧ String.utf8EncodeChar c =
      [UInt8.ofNat (c.toNat / 4096 + 224), UInt8.ofNat (c.toNat / 64 % 64 + 128),
        UInt8.ofNat (c.toNat % 64 + 128)]) ∨
    (0x10000 ≤ c.toNat ∧ c.toNat < 0x110000 ∧ String.utf8EncodeChar c =
      [UInt8.ofNat (c.toNat / 262144 + 240), UInt8.ofNat (c.toNat / 4096 % 64 + 128),
        UInt8.ofNat (c.toNat / 64 % 64 + 128), UInt8.ofNat (c.toNat % 64 + 128)]) := by
  have hrange : c.toNat < 0x110000 := by
    have hvalid := c.valid
    unfold UInt32.isValidChar Nat.isValidChar at hvalid
    show c.val.toNat < _
    omega
  have hval : c.val.toNat = c.toNat := rfl
  unfold String.utf8EncodeChar
  simp only [hval]
  split
  · exact .inl ⟨by omega, rfl⟩
  split
  · exact .inr (.inl ⟨by omega, by omega, by rw [Nat.mod_eq_of_lt (by omega)]⟩)
  split
  · exact .inr (.inr (.inl ⟨by omega, by omega, by
      rw [Nat.mod_eq_of_lt (b := 16) (by omega)]⟩))
  · exact .inr (.inr (.inr ⟨by omega, by omega, by
      rw [Nat.mod_eq_of_lt (b := 8) (by omega)]⟩))

theorem utf8EncodeChar_ascii {c : Char} (h : c.toNat < 128) :
    String.utf8EncodeChar c = [UInt8.ofNat c.toNat] := by
  unfold String.utf8EncodeChar
  exact if_pos (Nat.le_of_lt_succ h)

/-- Every byte of a character outside ASCII has its upper bit set. -/
theorem le_of_mem_utf8EncodeChar {c : Char} (h : 128 ≤ c.toNat) {b : UInt8}
    (hb : b ∈ String.utf8EncodeChar c) : 128 ≤ b.toNat := by
  rcases utf8EncodeChar_cases c with ⟨hlt, -⟩ | ⟨-, hlt, hbytes⟩ | ⟨-, hlt, hbytes⟩ |
    ⟨-, hlt, hbytes⟩
  · omega
  all_goals
    rw [hbytes] at hb
    simp only [List.mem_cons, List.not_mem_nil, or_false] at hb
  · rcases hb with rfl | rfl <;> simp <;> omega
  · rcases hb with rfl | rfl | rfl <;> simp <;> omega
  · rcases hb with rfl | rfl | rfl | rfl <;> simp <;> omega

/-- An ASCII byte stands in the encoding of the character with its code and of
no other. -/
theorem mem_utf8EncodeChar_iff {a : Char} (ha : a.toNat < 128) (c : Char) :
    UInt8.ofNat a.toNat ∈ String.utf8EncodeChar c ↔ c = a := by
  have hcode : (UInt8.ofNat a.toNat).toNat = a.toNat := Nat.mod_eq_of_lt (by omega)
  constructor
  · intro h
    by_cases hc : c.toNat < 128
    · rw [utf8EncodeChar_ascii hc, List.mem_singleton] at h
      have heq := congrArg UInt8.toNat h
      rw [hcode, UInt8.toNat_ofNat_of_lt' (Nat.lt_trans hc (by decide))] at heq
      rw [← Char.ofNat_toNat c, ← heq, Char.ofNat_toNat]
    · have hle := le_of_mem_utf8EncodeChar (Nat.le_of_not_lt hc) h
      omega
  · intro h
    rw [h, utf8EncodeChar_ascii ha]
    exact List.mem_singleton_self _

theorem mem_encodeUtf8_iff {a : Char} (ha : a.toNat < 128) (cs : List Char) :
    UInt8.ofNat a.toNat ∈ encodeUtf8 cs ↔ a ∈ cs := by
  simp only [encodeUtf8, List.mem_flatMap, mem_utf8EncodeChar_iff ha]
  constructor
  · intro h
    obtain ⟨c, hc, rfl⟩ := h
    exact hc
  · exact fun h => ⟨a, h, rfl⟩

/-- Dropping a carriage return from the encoding of a text chomps the text. -/
theorem dropReturn_encodeUtf8 (cs : List Char) :
    dropReturn (encodeUtf8 cs) = encodeUtf8 (chomp cs) := by
  rcases List.eq_nil_or_concat cs with rfl | ⟨front, c, rfl⟩
  · rfl
  rw [List.concat_eq_append, encodeUtf8_append, dropReturn, chomp, List.getLast?_concat]
  by_cases hc : c = '\r'
  · have hbytes : encodeUtf8 [c] = [carriageReturn] := by
      rw [hc]
      rfl
    rw [hbytes, List.getLast?_concat, if_pos rfl, if_pos (congrArg some hc), List.dropLast_concat,
      List.dropLast_concat]
  · have hne : encodeUtf8 [c] ≠ [] := by simp [encodeUtf8, String.utf8EncodeChar_ne_nil]
    have hreturn : carriageReturn ∉ encodeUtf8 [c] := by
      intro h
      have hmem := (mem_encodeUtf8_iff (a := '\r') (by decide) [c]).1 h
      exact hc (List.mem_singleton.1 hmem).symm
    have hlast := getLast?_append_ne (encodeUtf8 front) hne hreturn
    rw [if_neg hlast, if_neg (fun h => hc (Option.some.inj h)), encodeUtf8_append]

/-- The encoding of a text decodes to the text. -/
theorem decodeUtf8_encodeUtf8 (cs : List Char) :
    decodeUtf8 (encodeUtf8 cs) = some (String.ofList cs) := by
  have hbytes : (⟨(encodeUtf8 cs).toArray⟩ : ByteArray) = cs.utf8Encode :=
    congrArg ByteArray.mk List.data_toByteArray.symm
  have hvalid : cs.utf8Encode.IsValidUTF8 := .intro cs rfl
  rw [decodeUtf8, hbytes, String.fromUTF8?, dif_pos hvalid]
  rfl

/-! ## Cutting into lines -/

/-- Bytes in front of a line feed are a line. -/
theorem splitLines_append {line : List UInt8} (h : lineFeed ∉ line) (rest : List UInt8) :
    splitLines (line ++ lineFeed :: rest) =
      (dropReturn line :: (splitLines rest).1, (splitLines rest).2) := by
  have hline : ∀ b ∈ line, (b != lineFeed) = true := fun b hb => by
    simpa using fun heq : b = lineFeed => h (heq ▸ hb)
  have hdrop : (line ++ lineFeed :: rest).dropWhile (· != lineFeed) = lineFeed :: rest := by
    rw [List.dropWhile_append_of_pos hline, List.dropWhile_cons_of_neg (by simp)]
  have htake : (line ++ lineFeed :: rest).takeWhile (· != lineFeed) = line := by
    rw [List.takeWhile_append_of_pos hline, List.takeWhile_cons_of_neg (by simp), List.append_nil]
  rw [splitLines]
  split
  · rename_i hnil
    rw [hdrop] at hnil
    cases hnil
  · rename_i hcons
    rw [hdrop] at hcons
    cases hcons
    rw [htake]

theorem splitLines_of_not_mem {bytes : List UInt8} (h : lineFeed ∉ bytes) :
    splitLines bytes = ([], bytes) := by
  have hline : ∀ b ∈ bytes, (b != lineFeed) = true := fun b hb => by
    simpa using fun heq : b = lineFeed => h (heq ▸ hb)
  have hdrop : bytes.dropWhile (· != lineFeed) = [] := by
    rw [← List.append_nil bytes, List.dropWhile_append_of_pos hline]
    rfl
  rw [splitLines]
  split
  · rfl
  · rename_i hcons
    rw [hdrop] at hcons
    cases hcons

/-- Lines, each with a line feed behind it. -/
def ended (lines : List (List Char)) : List Char := lines.flatMap (· ++ ['\n'])

/-- The bytes of lines are cut into the bytes of the lines. -/
theorem splitLines_ended {lines : List (List Char)} {last : List Char}
    (hlines : ∀ line ∈ lines, '\n' ∉ line) (hlast : '\n' ∉ last) :
    splitLines (encodeUtf8 (ended lines ++ last)) =
      (lines.map fun line => encodeUtf8 (chomp line), encodeUtf8 last) := by
  have hfeed : ∀ cs : List Char, '\n' ∉ cs → lineFeed ∉ encodeUtf8 cs :=
    fun cs hcs hmem => hcs ((mem_encodeUtf8_iff (a := '\n') (by decide) cs).1 hmem)
  induction lines with
  | nil => exact splitLines_of_not_mem (hfeed last hlast)
  | cons line lines ih =>
    rw [List.forall_mem_cons] at hlines
    have hfront : encodeUtf8 (ended (line :: lines) ++ last) =
        encodeUtf8 line ++ lineFeed :: encodeUtf8 (ended lines ++ last) := by
      rw [ended, List.flatMap_cons, List.append_assoc, List.append_assoc, encodeUtf8_append]
      rfl
    rw [hfront, splitLines_append (hfeed line hlines.1), ih hlines.2, dropReturn_encodeUtf8,
      List.map_cons]

end Monitor68.Text

namespace Monitor68.Files

open Monitor68.Text

theorem decodeLine_encodeUtf8 (cs : List Char) :
    decodeLine (encodeUtf8 cs) = .ok (String.ofList cs) := by
  rw [decodeLine, decodeUtf8_encodeUtf8]

theorem readableLines_map_ok (lines : List String) :
    readableLines (lines.map .ok) = lines := by
  induction lines with
  | nil => rfl
  | cons line lines ih => rw [List.map_cons, readableLines, ih]

/-- A file of lines is read as the chomped lines, and what stands behind the
last line feed is a line of its own unless it is empty. -/
theorem readableLines_ended {lines : List (List Char)} {last : List Char}
    (hlines : ∀ line ∈ lines, '\n' ∉ line) (hlast : '\n' ∉ last) :
    readableLines (Contents.lines { bytes := encodeUtf8 (ended lines ++ last) }) =
      (lines.map chomp ++ if last = [] then [] else [last]).map String.ofList := by
  have hempty : encodeUtf8 last = [] ↔ last = [] := by
    cases last with
    | nil => simp [encodeUtf8]
    | cons c cs => simp [encodeUtf8, String.utf8EncodeChar_ne_nil]
  have hread : Contents.lines { bytes := encodeUtf8 (ended lines ++ last) } =
      ((lines.map chomp ++ if last = [] then [] else [last]).map String.ofList).map .ok := by
    rw [Contents.lines, splitLines_ended hlines hlast]
    simp only [hempty]
    split <;> simp [Function.comp_def, decodeLine_encodeUtf8]
  rw [hread, readableLines_map_ok]

end Monitor68.Files
