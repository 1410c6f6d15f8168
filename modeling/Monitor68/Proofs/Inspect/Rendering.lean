import Monitor68.Inspect.Dump
import Monitor68.Proofs.Bytes.Hex
import Monitor68.Proofs.Text.Words

/-!
# Dump rows told apart

A row of a dump is printed in columns with a blank between two of them.  The
column of characters can look like anything, like digits or like the marker
of the stack pointer, so the columns are not told apart by what is in them.
They are told apart by how long they are: the digits of a row of `n` bytes,
the blank and the characters take `4 * n` places, or one if there are no
bytes, and the marker takes six more (`length_body`).  So the length of a
printed row says how many bytes there are and whether the row is marked.

`readColumn` reads the column of digits back, and `rows_told_apart` puts the
two together.
-/

namespace Monitor68.DumpRow

open Text Numeral

/-! ## The column of digits -/

/-- The bytes that a column spells, read two digits at a time.  Blanks in
front of a pair and at the end are passed over. -/
def readColumn : List Char → Option (List UInt8)
  | [] => some []
  | ' ' :: cs => readColumn cs
  | [_] => none
  | high :: low :: cs =>
    match readDigits 16 256 0 [high, low] with
    | .error _ => none
    | .ok n => (readColumn cs).map (UInt8.ofNat n :: ·)

/-- The two digits of a byte. -/
def pair (b : UInt8) : List Char := hexDigits 2 b.toNat

/-- The digits of bytes, with a blank between two bytes. -/
def pairs : List UInt8 → List Char
  | [] => []
  | [b] => pair b
  | b :: c :: rest => pair b ++ ' ' :: pairs (c :: rest)

theorem readColumn_pair (b : UInt8) (cs : List Char) :
    readColumn (pair b ++ cs) = (readColumn cs).map (b :: ·) := by
  have hread : readDigits 16 256 0 (pair b) = .ok b.toNat :=
    Bytes.Hex.forall_byte (P := fun b => readDigits 16 256 0 (pair b) = .ok b.toNat)
      (by decide +kernel) b
  have hpair : pair b = [upperDigit (b.toNat / 16 % 16), upperDigit (b.toNat % 16)] := rfl
  have hdigit : ∀ d < 16, upperDigit d ≠ ' ' := by decide
  rw [hpair] at hread ⊢
  rw [List.cons_append, List.cons_append, List.nil_append, readColumn, hread]
  · show (readColumn cs).map (UInt8.ofNat b.toNat :: ·) = _
    rw [UInt8.ofNat_toNat]
  · exact hdigit _ (Nat.mod_lt _ (by decide))

/-- Digits read back, whatever number of blanks stands behind them. -/
theorem readColumn_padded (bytes : List UInt8) (blanks : Nat) :
    readColumn (pairs bytes ++ List.replicate blanks ' ') = some bytes := by
  have hblanks : readColumn (List.replicate blanks ' ') = some [] := by
    induction blanks with
    | zero => rfl
    | succ blanks ih => rw [List.replicate_succ, readColumn, ih]
  fun_induction pairs bytes with
  | case1 => exact hblanks
  | case2 b => rw [readColumn_pair, hblanks]; rfl
  | case3 b c rest ih =>
    rw [List.append_assoc, readColumn_pair, List.cons_append, readColumn, ih]
    rfl

theorem readColumn_pairs (bytes : List UInt8) : readColumn (pairs bytes) = some bytes := by
  have hread := readColumn_padded bytes 0
  rwa [List.replicate_zero, List.append_nil] at hread

theorem length_pairs (bytes : List UInt8) : (pairs bytes).length = 3 * bytes.length - 1 := by
  have hpair : ∀ b, (pair b).length = 2 := fun b => length_hexDigits 2 b.toNat
  fun_induction pairs bytes with
  | case1 => rfl
  | case2 b => exact hpair b
  | case3 b c rest ih =>
    rw [List.length_append, List.length_cons, hpair, ih]
    simp only [List.length_cons]
    omega

/-- The last of the digits is no blank. -/
theorem last_pairs (bytes : List UInt8) : ∀ c ∈ (pairs bytes).getLast?, isBlank c = false := by
  have hdigit : ∀ d < 16, isBlank (upperDigit d) = false := by decide
  have hpair : ∀ b, ∀ c ∈ (pair b).getLast?, isBlank c = false := by
    intro b c hc
    obtain ⟨d, hd, rfl⟩ := mem_hexDigits (List.mem_of_getLast? hc)
    exact hdigit d hd
  fun_induction pairs bytes with
  | case1 => exact fun c hc => nomatch hc
  | case2 b => exact hpair b
  | case3 b c rest ih =>
    obtain hnil | ⟨front, d, hd⟩ := List.eq_nil_or_concat (pairs (c :: rest))
    · have hlength := congrArg List.length hnil
      rw [length_pairs, List.length_cons, List.length_nil] at hlength
      omega
    · rw [hd, List.concat_eq_append, List.getLast?_concat] at ih
      rw [hd, List.concat_eq_append, ← List.cons_append, ← List.append_assoc,
        List.getLast?_concat]
      exact ih

/-- The column is the digits, and blanks behind them. -/
theorem hexColumn_eq (bytes : List UInt8) :
    ∃ blanks, (hexColumn bytes).toList = pairs bytes ++ List.replicate blanks ' ' := by
  have hdigits : ∀ bytes : List UInt8, bytes ≠ [] →
      (bytes.flatMap fun b => hexDigits 2 b.toNat ++ [' ']) = pairs bytes ++ [' '] := by
    intro bytes hne
    fun_induction pairs bytes with
    | case1 => exact absurd rfl hne
    | case2 b => rw [List.flatMap_singleton]; rfl
    | case3 b c rest ih =>
      rw [List.flatMap_cons, ih (List.cons_ne_nil _ _)]
      simp [pair]
  rw [hexColumn, padRight, String.toList_append, String.toList_ofList, String.toList_ofList]
  cases bytes with
  | nil => exact ⟨_, rfl⟩
  | cons b rest =>
    rw [hdigits _ (List.cons_ne_nil b rest), List.append_assoc]
    exact ⟨_, congrArg _ (List.replicate_succ).symm⟩

theorem trimRight_hexColumn (bytes : List UInt8) :
    trimRight (hexColumn bytes).toList = pairs bytes := by
  obtain ⟨blanks, hcolumn⟩ := hexColumn_eq bytes
  have hgap : IsGap (List.replicate blanks ' ') := by
    intro c hc
    rw [List.eq_of_mem_replicate hc]
    decide
  rw [hcolumn, trimRight_append_gap hgap (last_pairs bytes)]

/-! ## Printed rows -/

/-- What is printed behind the address of a row. -/
def body (row : DumpRow) : List Char :=
  pairs row.bytes ++ ' ' :: (row.bytes.map glyph ++ if row.marked then marker.toList else [])

theorem toList_render (row : DumpRow) :
    row.render.toList =
      "0x".toList ++ (hexDigits 8 row.address.toNat ++ ' ' :: row.body) := by
  have hbytes : String.ofList (trimRight (hexColumn row.bytes).toList) =
      String.ofList (pairs row.bytes) := by rw [trimRight_hexColumn]
  simp only [render, hbytes, body, addressText, hex, textColumn]
  cases row.marked <;> simp [toString]

theorem length_body (row : DumpRow) :
    row.body.length = (3 * row.bytes.length - 1) + 1 + row.bytes.length +
      if row.marked then 6 else 0 := by
  have hmarker : marker.toList.length = 6 := rfl
  rw [body, List.length_append, List.length_cons, List.length_append, List.length_map, length_pairs]
  cases row.marked <;> simp [hmarker] <;> omega

/-- The length of what is printed tells the number of bytes and the mark, and
then the columns are told apart by their lengths. -/
theorem body_injective {row row' : DumpRow} (h : row.body = row'.body) :
    row.bytes = row'.bytes ∧ row.marked = row'.marked := by
  have hlength := congrArg List.length h
  rw [length_body, length_body] at hlength
  have htold : row.bytes.length = row'.bytes.length ∧ row.marked = row'.marked := by
    cases hmarked : row.marked <;> cases hmarked' : row'.marked <;>
      simp only [hmarked, hmarked', Bool.false_eq_true, if_true, if_false] at hlength <;>
      simp <;> omega
  obtain ⟨hbytes, hmarked⟩ := htold
  have hcolumn := (List.append_inj h (by rw [length_pairs, length_pairs, hbytes])).1
  have hread := congrArg readColumn hcolumn
  rw [readColumn_pairs, readColumn_pairs] at hread
  exact ⟨Option.some.inj hread, hmarked⟩

/-- Rows are printed without loss: two rows that look the same are the same, and
the column of digits, with the blanks behind it or without them, reads back as
the bytes. -/
theorem rows_told_apart :
    (∀ row row' : DumpRow, row.render = row'.render ↔ row = row') ∧
    ∀ bytes, readColumn (hexColumn bytes).toList = some bytes ∧
      readColumn (trimRight (hexColumn bytes).toList) = some bytes := by
  refine ⟨fun row row' => ⟨fun h => ?_, fun h => by rw [h]⟩, fun bytes => ?_⟩
  · have htext := congrArg String.toList h
    rw [toList_render, toList_render] at htext
    obtain ⟨hdigits, hrest⟩ := List.append_inj (List.append_cancel_left htext)
      (by rw [length_hexDigits, length_hexDigits])
    have haddress : ∀ address : UInt32, Denotes hexadecimals (hexDigits 8 address.toNat)
        address.toNat := fun address => denotes_hexDigits address.toNat_lt
    have hsame := (haddress row.address).unique (hdigits ▸ haddress row'.address)
    obtain ⟨hbytes, hmarked⟩ := body_injective (List.cons.inj hrest).2
    cases row
    cases row'
    rw [UInt32.toNat_inj] at hsame
    cases hsame
    cases hbytes
    cases hmarked
    rfl
  · obtain ⟨blanks, hcolumn⟩ := hexColumn_eq bytes
    rw [trimRight_hexColumn, hcolumn]
    exact ⟨readColumn_padded bytes blanks, readColumn_pairs bytes⟩

/-- Bytes that spell the marker, in a row without it and in a row with it. -/
example :
    let row : DumpRow :=
      { address := 0, bytes := [0x20, 0x3C, 0x2D, 0x20, 0x53, 0x50], marked := false }
    row.render = "0x00000000 20 3C 2D 20 53 50  <- SP" ∧
      { row with marked := true }.render = "0x00000000 20 3C 2D 20 53 50  <- SP <- SP" := by
  decide +kernel

end Monitor68.DumpRow
