import Monitor68.Bytes.Hex.Lemmas
import Monitor68.Proofs.Text.Words
import Monitor68.SRecord.Parser
import Monitor68.SRecord.Writer

/-!
# Records that were written read back

The writer picks the narrowest address field, states a count and closes a
record with a checksum; the reader finds the fields from the kind digit
alone and looks at neither count nor checksum.  The two agree on every
record that can be written, whatever white space stands around its line.

What the reader ignores is stated apart, since no reading back can show
it: in a written line the first byte counts the bytes behind it, and all
bytes add up to `0xFF`.
-/

namespace Monitor68.SRecord

open Monitor68.Bytes Monitor68.Text

/-! ## The form of a line -/

def upperDigits : List Char := "0123456789ABCDEF".toList

/-- The sum of bytes as numbers. -/
def byteSum : List UInt8 → Nat
  | [] => 0
  | b :: bs => b.toNat + byteSum bs

/-- A line of the letter `S`, a kind digit and bytes in upper-case
hexadecimal.  The first byte is the number of bytes behind it, and all bytes
add up to `0xFF`. -/
def Framed (digit : Char) (line : String) : Prop :=
  ∃ digits count rest, line.toList = 'S' :: digit :: digits ∧ (∀ c ∈ digits, c ∈ upperDigits) ∧
    Hex.decode (encodeUtf8 digits) = .ok (count :: rest) ∧ count.toNat = rest.length ∧
    byteSum (count :: rest) % 256 = 0xFF

theorem mem_upperDigits_of_mem_encode {bytes : List UInt8} {c : Char} (h : c ∈ Hex.encode bytes) :
    c ∈ upperDigits := by
  have hdigit : ∀ n < 16, Numeral.upperDigit n ∈ upperDigits := by decide
  obtain ⟨b, -, hc⟩ := List.mem_flatMap.1 h
  simp only [Numeral.hexDigits, List.nil_append, List.mem_append, List.mem_singleton] at hc
  rcases hc with rfl | rfl
  · exact hdigit _ (Nat.mod_lt _ (by omega))
  · exact hdigit _ (Nat.mod_lt _ (by omega))

theorem not_blank_of_mem_upperDigits {c : Char} (h : c ∈ upperDigits) : isBlank c = false := by
  have hall : upperDigits.all (fun c => isBlank c == false) = true := by decide
  exact beq_iff_eq.1 (List.all_eq_true.1 hall c h)

theorem byteSum_concat (bytes : List UInt8) (b : UInt8) :
    byteSum (bytes ++ [b]) = byteSum bytes + b.toNat := by
  induction bytes with
  | nil => exact Nat.add_comm b.toNat 0
  | cons c cs ih => rw [List.cons_append, byteSum, byteSum, ih, Nat.add_assoc]

/-- Adding up bytes keeps the sum up to a multiple of 256. -/
theorem toNat_foldl_add (bytes : List UInt8) (start : UInt8) :
    (bytes.foldl (· + ·) start).toNat = (start.toNat + byteSum bytes) % 256 := by
  induction bytes generalizing start with
  | nil => simp [byteSum]
  | cons b bs ih =>
    rw [List.foldl_cons, ih, UInt8.toNat_add, byteSum]
    omega

/-- The checksum byte brings the sum to `0xFF`. -/
theorem byteSum_append_checksum (bytes : List UInt8) :
    byteSum (bytes ++ [checksum bytes]) % 256 = 0xFF := by
  have hsum : (bytes.foldl (· + ·) 0).toNat = byteSum bytes % 256 := by
    rw [toNat_foldl_add, UInt8.toNat_zero, Nat.zero_add]
  have hcheck : (checksum bytes).toNat = 255 - byteSum bytes % 256 := by
    have hle : bytes.foldl (· + ·) 0 ≤ (0xFF : UInt8) := by
      rw [UInt8.le_iff_toNat_le]
      exact Nat.le_of_lt_succ (UInt8.toNat_lt _)
    rw [checksum, UInt8.toNat_sub_of_le _ _ hle, hsum]
    rfl
  rw [byteSum_concat, hcheck]
  omega

/-- A line whose count fits in one byte has the form of a line. -/
theorem framed_line (kind : Kind) (address : UInt32) {payload : List UInt8}
    (h : countOf kind.width payload.length < 256) :
    Framed kind.digit (Record.line kind address payload) := by
  let front := Record.front kind address payload
  have hcount : (UInt8.ofNat (countOf kind.width payload.length)).toNat =
      kind.width.size + payload.length + 1 := Nat.mod_eq_of_lt h
  refine ⟨Hex.encode (front ++ [checksum front]), UInt8.ofNat (countOf kind.width payload.length),
    BigEndian.bytes kind.width.size address.toNat ++ payload ++ [checksum front], ?_, ?_, ?_, ?_,
    byteSum_append_checksum front⟩
  · exact String.toList_ofList
  · exact fun c => mem_upperDigits_of_mem_encode
  · exact Hex.decode_encode _
  · rw [hcount]
    simp [Nat.add_assoc]

/-! ## Reading back -/

/-- An address fits the field chosen for it and no narrower one of at least
two bytes. -/
theorem forAddress_narrowest (address : UInt32) :
    address.toNat < Nat.pow 256 (Width.forAddress address).size ∧
    ∀ v, 2 ≤ v → address.toNat < Nat.pow 256 v → (Width.forAddress address).size ≤ v := by
  unfold Width.forAddress
  split
  · rename_i hle
    have htwo : address.toNat ≤ 65535 := UInt32.le_iff_toNat_le.1 hle
    exact ⟨Nat.lt_succ_of_le htwo, fun v hv _ => hv⟩
  · rename_i hgt
    have htwo : ¬ address.toNat < 65536 :=
      fun h => hgt (UInt32.le_iff_toNat_le.2 (Nat.le_of_lt_succ h))
    split
    · rename_i hle
      have hthree : address.toNat ≤ 16777215 := UInt32.le_iff_toNat_le.1 hle
      refine ⟨Nat.lt_succ_of_le hthree, fun v hv hfits => Nat.le_of_not_lt fun hlt => ?_⟩
      obtain rfl : v = 2 := Nat.le_antisymm (Nat.le_of_lt_succ hlt) hv
      exact htwo hfits
    · rename_i hgt'
      have hthree : ¬ address.toNat < 16777216 :=
        fun h => hgt' (UInt32.le_iff_toNat_le.2 (Nat.le_of_lt_succ h))
      refine ⟨address.toNat_lt, fun v hv hfits => Nat.le_of_not_lt fun hlt => ?_⟩
      have hfour : v < 4 := hlt
      obtain rfl | rfl : v = 2 ∨ v = 3 := by omega
      · exact htwo hfits
      · exact hthree hfits

/-- The record of a kind that carries an address and, if it is a data record,
a payload. -/
def Kind.record (address : UInt32) (payload : List UInt8) : Kind → Record
  | .data _ => .data address payload
  | .start _ => .start address

theorem ofDigit?_digit (kind : Kind) : Kind.ofDigit? kind.digit = some kind := by
  cases kind with
  | data width => cases width <;> rfl
  | start width => cases width <;> rfl

theorem not_blank_digit (kind : Kind) : isBlank kind.digit = false := by
  cases kind with
  | data width => cases width <;> rfl
  | start width => cases width <;> rfl

theorem parse_of_kind {line : String} {kind : Kind} {body : List Char}
    (h : trim line.toList = 'S' :: kind.digit :: body) :
    Record.parse line = (Record.parseBody kind body).map some := by
  rw [Record.parse, h]
  simp only [ofDigit?_digit]

/-- Behind a kind digit, upper-case digits belong to the same word. -/
theorem isWord_record (kind : Kind) {digits : List Char} (h : ∀ c ∈ digits, c ∈ upperDigits) :
    IsWord ('S' :: kind.digit :: digits) := by
  refine ⟨List.cons_ne_nil _ _, fun c hc => ?_⟩
  rcases List.mem_cons.1 hc with rfl | hc
  · rfl
  rcases List.mem_cons.1 hc with rfl | hc
  · exact not_blank_digit kind
  · exact not_blank_of_mem_upperDigits (h c hc)

/-- The bytes of a record are read by their number and by what stands between
the first and the last. -/
theorem ofBytes_eq (kind : Kind) (bytes : List UInt8) :
    Record.ofBytes kind bytes =
      if bytes.length < kind.width.size + 2 then .error (.truncated kind bytes.length)
      else
        let inner := bytes.tail.dropLast
        .ok (kind.record (UInt32.ofNat (BigEndian.value (inner.take kind.width.size)))
          (inner.drop kind.width.size)) := by
  have hsize : kind.minimumSize = kind.width.size + 2 := by
    rw [Kind.minimumSize]
    omega
  rw [Record.ofBytes, hsize]
  split
  · rfl
  · rename_i hlong
    have hplace : (bytes.drop 1).take kind.width.size =
        bytes.tail.dropLast.take kind.width.size := by
      rw [List.drop_one, List.dropLast_eq_take, List.take_take, List.length_tail,
        Nat.min_eq_left (by omega)]
    rw [hplace]
    cases kind with
    | start width => rfl
    | data width =>
      have hpayload : (bytes.drop (1 + width.size)).dropLast =
          bytes.tail.dropLast.drop width.size := by
        rw [← List.drop_drop, List.drop_one, List.dropLast_eq_take, List.dropLast_eq_take,
          List.length_drop, List.drop_take, Nat.sub_right_comm]
      simp only [hpayload, Kind.record, Kind.width]

/-- The fields of a record are found by the width of its address. -/
theorem ofBytes_fields (kind : Kind) {place : List UInt8} (h : place.length = kind.width.size)
    (count : UInt8) (payload : List UInt8) (check : UInt8) :
    Record.ofBytes kind (count :: (place ++ payload ++ [check])) =
      .ok (kind.record (UInt32.ofNat (BigEndian.value place)) payload) := by
  have hlong : ¬ (count :: (place ++ payload ++ [check])).length < kind.width.size + 2 := by
    simp only [List.length_cons, List.length_append, List.length_nil]
    omega
  rw [ofBytes_eq, if_neg hlong]
  simp only [List.tail_cons, List.dropLast_concat, List.take_left' h, List.drop_left' h]

/-- The bytes of a record read as the record if its address fits the field. -/
theorem ofBytes_front (kind : Kind) {address : UInt32} (payload : List UInt8) (check : UInt8)
    (h : address.toNat < Nat.pow 256 kind.width.size) :
    Record.ofBytes kind (Record.front kind address payload ++ [check]) =
      .ok (kind.record address payload) := by
  have haddress : UInt32.ofNat (BigEndian.value
      (BigEndian.bytes kind.width.size address.toNat)) = address := by
    rw [BigEndian.value_bytes, Nat.mod_eq_of_lt h, UInt32.ofNat_toNat]
  rw [Record.front, List.cons_append, ofBytes_fields kind (BigEndian.length_bytes _ _), haddress]

/-- A line of a record reads back between two gaps. -/
theorem parse_line (kind : Kind) {address : UInt32} (payload : List UInt8)
    (h : address.toNat < Nat.pow 256 kind.width.size) {before after : String}
    (hbefore : IsGap before.toList) (hafter : IsGap after.toList) :
    Record.parse (before ++ Record.line kind address payload ++ after) =
      .ok (some (kind.record address payload)) := by
  let front := Record.front kind address payload
  let digits := Hex.encode (front ++ [checksum front])
  have hline : (before ++ Record.line kind address payload ++ after).toList =
      before.toList ++ ('S' :: kind.digit :: digits) ++ after.toList := by
    simp only [String.toList_append, Record.line, String.toList_ofList]
    rfl
  have hword : IsWord ('S' :: kind.digit :: digits) :=
    isWord_record kind fun c => mem_upperDigits_of_mem_encode
  have hbody : Record.parseBody kind digits = .ok (kind.record address payload) := by
    rw [Record.parseBody, Hex.decode_encode]
    exact ofBytes_front kind payload _ h
  rw [parse_of_kind (hline ▸ trim_word hbefore hafter hword), hbody]
  rfl

/-! ## Written records -/

/-- The kind digits of the records that are written count the bytes of the
address field, data records up from 1 and start records down from 9. -/
theorem digit_eq_digitChar (width : Width) :
    (Kind.data width).digit = Nat.digitChar (width.size - 1) ∧
    (Kind.start width).digit = Nat.digitChar (11 - width.size) := by
  cases width <;> exact ⟨rfl, rfl⟩

/-- A record is written exactly if its count fits in one byte. -/
theorem write_ok_iff (kind : Kind) (address : UInt32) (payload : List UInt8) (line : String) :
    Record.write kind address payload = .ok line ↔
      countOf kind.width payload.length ≤ 255 ∧ line = Record.line kind address payload := by
  unfold Record.write
  split
  · rename_i hcount
    simp [Nat.le_of_lt_succ hcount, eq_comm]
  · rename_i hcount
    have hlong : ¬ countOf kind.width payload.length ≤ 255 := by omega
    simp [hlong]

theorem write_error_iff (kind : Kind) (address : UInt32) (payload : List UInt8)
    (error : FormatError) :
    Record.write kind address payload = .error error ↔
      error = .recordTooLong payload.length ∧ 255 < countOf kind.width payload.length := by
  unfold Record.write
  split
  · rename_i hcount
    have hshort : ¬ 255 < countOf kind.width payload.length := by omega
    simp [hshort]
  · rename_i hcount
    have hlong : 255 < countOf kind.width payload.length := by omega
    simp [hlong, eq_comm]

/-- A start record is never too long. -/
theorem writeStart_eq (address : UInt32) :
    Record.writeStart address = Record.line (.start (Width.forAddress address)) address [] := by
  have hcount : countOf (Width.forAddress address) ([] : List UInt8).length ≤ 255 := by
    cases Width.forAddress address <;> decide
  have hwrite := (write_ok_iff (.start (Width.forAddress address)) address [] _).2 ⟨hcount, rfl⟩
  rw [Record.writeStart, hwrite]
  rfl

/-- Every record that can be written reads back between any white space, and
its line has the form of a line.  With `w` the least number of bytes, two
at least, that hold the address, a data record cannot be written exactly if
its address, its payload and its checksum are more than 255 bytes.  A
start record can always be written. -/
theorem written_records_read_back (address : UInt32) (payload : List UInt8) :
    ∃ w, 2 ≤ w ∧ w ≤ 4 ∧ address.toNat < Nat.pow 256 w ∧
      (∀ v, 2 ≤ v → address.toNat < Nat.pow 256 v → w ≤ v) ∧
      (∀ error, Record.writeData address payload = .error error ↔
        error = .recordTooLong payload.length ∧ 255 < w + payload.length + 1) ∧
      (w + payload.length + 1 ≤ 255 → ∃ line, Record.writeData address payload = .ok line ∧
        Framed (Nat.digitChar (w - 1)) line ∧
        ∀ before after : String, IsGap before.toList → IsGap after.toList →
          Record.parse (before ++ line ++ after) = .ok (some (.data address payload))) ∧
      Framed (Nat.digitChar (11 - w)) (Record.writeStart address) ∧
      ∀ before after : String, IsGap before.toList → IsGap after.toList →
        Record.parse (before ++ Record.writeStart address ++ after) =
          .ok (some (.start address)) := by
  let width := Width.forAddress address
  obtain ⟨hfits, hleast⟩ := forAddress_narrowest address
  obtain ⟨hdata, hstart⟩ := digit_eq_digitChar width
  have hrange : 2 ≤ width.size ∧ width.size ≤ 4 := by cases width <;> decide
  have hstartCount : countOf width ([] : List UInt8).length < 256 := by
    cases width <;> decide
  have hframed := framed_line (.start width) address hstartCount
  rw [hstart] at hframed
  rw [writeStart_eq]
  refine ⟨width.size, hrange.1, hrange.2, hfits, hleast,
    write_error_iff (.data width) address payload, fun hshort => ?_, hframed,
    fun before after => parse_line (.start width) [] hfits⟩
  refine ⟨Record.line (.data width) address payload,
    (write_ok_iff (.data width) address payload _).2 ⟨hshort, rfl⟩, ?_,
    fun before after => parse_line (.data width) payload hfits⟩
  rw [← hdata]
  exact framed_line (.data width) address (Nat.lt_succ_of_le hshort)

/-- The longest record for the least address of three bytes, read back between
an ideographic space and a carriage return. -/
theorem longest_record_reads_back :
    let payload := List.replicate 251 (0xFF : UInt8)
    3 + payload.length + 1 ≤ 255 ∧ IsGap "\u3000".toList ∧ IsGap "\r".toList ∧
    ∃ line, Record.writeData 0x10000 payload = .ok line ∧
      Record.parse ("\u3000" ++ line ++ "\r") = .ok (some (.data 0x10000 payload)) := by
  intro payload
  have hspace : IsGap "\u3000".toList := List.all_eq_true.1 (by decide)
  have hreturn : IsGap "\r".toList := List.all_eq_true.1 (by decide)
  obtain ⟨w, htwo, hfour, hfits, hleast, -, hwritten, -⟩ :=
    written_records_read_back 0x10000 payload
  have hthree : w ≤ 3 := hleast 3 (by decide) (by decide)
  have hlength : payload.length = 251 := List.length_replicate
  have hshort : w + payload.length + 1 ≤ 255 := by omega
  obtain ⟨line, hline, -, hparse⟩ := hwritten hshort
  exact ⟨by omega, hspace, hreturn, line, hline, hparse _ _ hspace hreturn⟩

end Monitor68.SRecord
