import Monitor68.Proofs.Bytes.BigEndian
import Monitor68.Proofs.Bytes.Hex
import Monitor68.Proofs.SRecord.RoundTrip

/-!
# The grammar of a record line

Every line is read in one of six ways, and `Reading` says which lines are
read in which: a line that is no record is skipped, and a line with a kind
digit has a field of odd length, a byte that is no digit, too few bytes, a
payload, or a start address.

The reader here cuts texts and lists into parts where the parts are known to
be there.  A reader that cuts by positions has to stay inside what it cuts,
and on the borders of characters.  `parseByPosition` is one that gives no
answer at all when it does not, and it always has the answer of
`Record.parse`.
-/

namespace Monitor68.SRecord

open Monitor68.Bytes Monitor68.Text

/-! ## The six ways to read a line -/

/-- How a trimmed line is read. -/
inductive Reading (t : List Char) : Except FormatError (Option Record) → Prop where
  | skipped (noRecord : ∀ (kind : Kind) (body : List Char), t ≠ 'S' :: kind.digit :: body) :
      Reading t (.ok none)
  | oddLength {kind : Kind} {body : List Char} (split : t = 'S' :: kind.digit :: body)
      (odd : (encodeUtf8 body).length % 2 = 1) : Reading t (.error (.invalidHex .oddLength))
  | invalidByte {kind : Kind} {body : List Char} {front back : List UInt8} {byte : UInt8}
      (split : t = 'S' :: kind.digit :: body) (field : encodeUtf8 body = front ++ byte :: back)
      (even : (encodeUtf8 body).length % 2 = 0) (digits : ∀ b ∈ front, Hex.IsDigit b)
      (invalid : ¬ Hex.IsDigit byte) :
      Reading t (.error (.invalidHex (.invalidByte byte front.length)))
  | truncated {kind : Kind} {body : List Char} {bytes : List UInt8}
      (split : t = 'S' :: kind.digit :: body) (field : Hex.Carries (encodeUtf8 body) bytes)
      (short : bytes.length < kind.width.size + 2) :
      Reading t (.error (.truncated kind bytes.length))
  | data {width : Width} {body : List Char} {place payload : List UInt8} {count check : UInt8}
      {address : UInt32} (split : t = 'S' :: (Kind.data width).digit :: body)
      (field : Hex.Carries (encodeUtf8 body) (count :: (place ++ payload ++ [check])))
      (size : place.length = width.size)
      (value : address.toNat = Nat.ofDigits 256 (place.reverse.map UInt8.toNat)) :
      Reading t (.ok (some (.data address payload)))
  | start {width : Width} {body : List Char} {place ignored : List UInt8} {count : UInt8}
      {address : UInt32} (split : t = 'S' :: (Kind.start width).digit :: body)
      (field : Hex.Carries (encodeUtf8 body) (count :: (place ++ ignored)))
      (size : place.length = width.size) (more : ignored ≠ [])
      (value : address.toNat = Nat.ofDigits 256 (place.reverse.map UInt8.toNat)) :
      Reading t (.ok (some (.start address)))

/-! ## Kind digits -/

theorem ofDigit?_eq_some_iff (c : Char) (kind : Kind) :
    Kind.ofDigit? c = some kind ↔ c = kind.digit := by
  constructor
  · intro h
    unfold Kind.ofDigit? at h
    split at h <;> cases h <;> rfl
  · rintro rfl
    exact ofDigit?_digit kind

theorem parse_of_no_record {line : String}
    (h : ∀ (kind : Kind) (body : List Char), trim line.toList ≠ 'S' :: kind.digit :: body) :
    Record.parse line = .ok none := by
  unfold Record.parse
  split
  · rename_i digit body hline
    cases hkind : Kind.ofDigit? digit with
    | none => rfl
    | some kind =>
      rw [ofDigit?_eq_some_iff] at hkind
      exact absurd (hkind ▸ hline) (h kind body)
  · rfl

/-! ## Every line is read in one way -/

theorem parse_of_carries {line : String} {kind : Kind} {body : List Char} {bytes : List UInt8}
    (h : trim line.toList = 'S' :: kind.digit :: body)
    (hbytes : Hex.Carries (encodeUtf8 body) bytes) :
    Record.parse line = (Record.ofBytes kind bytes).map some := by
  rw [parse_of_kind h, Record.parseBody, Hex.decode_of_carries hbytes]

theorem ofNat_value {address : UInt32} {place : List UInt8}
    (h : address.toNat = Nat.ofDigits 256 (place.reverse.map UInt8.toNat)) :
    UInt32.ofNat (BigEndian.value place) = address := by
  rw [BigEndian.value_eq_ofDigits, ← h, UInt32.ofNat_toNat]

/-- An address field does not exceed a word. -/
theorem toNat_ofNat_value {kind : Kind} {place : List UInt8} (h : place.length = kind.width.size) :
    (UInt32.ofNat (BigEndian.value place)).toNat =
      Nat.ofDigits 256 (place.reverse.map UInt8.toNat) := by
  have hsize : kind.width.size ≤ 4 := by cases kind.width <;> decide
  have hlt : BigEndian.value place < 256 ^ 4 :=
    (BigEndian.value_lt place).trans_le (Nat.pow_le_pow_right (by decide) (h ▸ hsize))
  rw [UInt32.toNat_ofNat_of_lt' hlt, BigEndian.value_eq_ofDigits]

theorem parse_of_reading {line : String} {outcome : Except FormatError (Option Record)}
    (h : Reading (trim line.toList) outcome) : Record.parse line = outcome := by
  cases h with
  | skipped noRecord => exact parse_of_no_record noRecord
  | oddLength split odd => rw [parse_of_kind split, Record.parseBody, Hex.decode_of_odd odd]; rfl
  | invalidByte split field even digits invalid =>
    rw [field] at even
    rw [parse_of_kind split, Record.parseBody, field, Hex.decode_of_invalid even digits invalid]
    rfl
  | truncated split field short => rw [parse_of_carries split field, ofBytes_eq, if_pos short]; rfl
  | @data width _ _ payload _ check _ split field size value =>
    rw [parse_of_carries split field, ofBytes_fields (.data width) size, ofNat_value value]
    rfl
  | @start width _ place ignored count _ split field size more value =>
    obtain ⟨payload, check, rfl⟩ := (List.eq_nil_or_concat' ignored).resolve_left more
    rw [← List.append_assoc] at field
    rw [parse_of_carries split field, ofBytes_fields (.start width) size, ofNat_value value]
    rfl

/-- Enough bytes for an address are a count, the address, a payload and a
checksum. -/
theorem exists_fields {width : Width} {bytes : List UInt8} (h : width.size + 2 ≤ bytes.length) :
    ∃ count place payload check, bytes = count :: (place ++ payload ++ [check]) ∧
      place.length = width.size := by
  obtain ⟨count, rest, rfl⟩ : ∃ count rest, bytes = count :: rest :=
    List.exists_cons_of_length_pos (by omega)
  rw [List.length_cons] at h
  obtain ⟨inner, check, rfl⟩ : ∃ inner check, rest = inner ++ [check] :=
    (List.eq_nil_or_concat' rest).resolve_left (List.ne_nil_of_length_pos (by omega))
  rw [List.length_append, List.length_singleton] at h
  refine ⟨count, inner.take width.size, inner.drop width.size, check, ?_, ?_⟩
  · rw [List.take_append_drop]
  · rw [List.length_take, Nat.min_eq_left (by omega)]

theorem exists_reading_of_carries {t : List Char} {kind : Kind} {body : List Char}
    {bytes : List UInt8} (split : t = 'S' :: kind.digit :: body)
    (field : Hex.Carries (encodeUtf8 body) bytes) : ∃ outcome, Reading t outcome := by
  by_cases hshort : bytes.length < kind.width.size + 2
  · exact ⟨_, .truncated split field hshort⟩
  obtain ⟨count, place, payload, check, rfl, hsize⟩ := exists_fields (Nat.le_of_not_lt hshort)
  have hvalue := toNat_ofNat_value hsize
  cases kind with
  | data width => exact ⟨_, .data split field hsize hvalue⟩
  | start width =>
    rw [List.append_assoc] at field
    exact ⟨_, .start split field hsize (by simp) hvalue⟩

/-- Some way to read applies to every line. -/
theorem exists_reading (t : List Char) : ∃ outcome, Reading t outcome := by
  by_cases hrecord : ∃ (kind : Kind) (body : List Char), t = 'S' :: kind.digit :: body
  · obtain ⟨kind, body, split⟩ := hrecord
    obtain odd | ⟨even, front, byte, back, field, digits, invalid⟩ | ⟨bytes, field⟩ :=
      Hex.decode_cases (encodeUtf8 body)
    · exact ⟨_, .oddLength split odd⟩
    · exact ⟨_, .invalidByte split field even digits invalid⟩
    · exact exists_reading_of_carries split field
  · exact ⟨_, .skipped fun kind body split => hrecord ⟨kind, body, split⟩⟩

theorem parse_eq_iff_reading (line : String) (outcome : Except FormatError (Option Record)) :
    Record.parse line = outcome ↔ Reading (trim line.toList) outcome := by
  refine ⟨fun h => ?_, parse_of_reading⟩
  obtain ⟨other, hother⟩ := exists_reading (trim line.toList)
  rwa [← h, parse_of_reading hother]

/-! ## What does not count -/

/-- Of two texts that differ in the case of digits, both or none are records, and
of one kind. -/
theorem split_of_map_raised {t t' : List Char} (h : t.map Hex.raised = t'.map Hex.raised)
    {kind : Kind} {body : List Char} (split : t = 'S' :: kind.digit :: body) :
    ∃ body', t' = 'S' :: kind.digit :: body' ∧ body'.map Hex.raised = body.map Hex.raised := by
  have hletter : Hex.raised 'S' = 'S' := by decide
  have hkind : ∀ kind : Kind, Hex.raised kind.digit = kind.digit ∧
      kind.digit ∉ "ABCDEF".toList := by
    rintro (width | width) <;> cases width <;> decide
  obtain ⟨hdigit, hupper⟩ := hkind kind
  rw [split, List.map_cons, List.map_cons, hletter, hdigit] at h
  obtain ⟨letter, rest, rfl, hletter', hrest⟩ := List.map_eq_cons_iff.1 h.symm
  obtain ⟨digit, body', rfl, hdigit', hbody⟩ := List.map_eq_cons_iff.1 hrest
  rw [Hex.eq_of_raised_eq hletter' (by decide), Hex.eq_of_raised_eq hdigit' hupper]
  exact ⟨body', rfl, hbody⟩

/-- The case of digits does not count. -/
theorem parse_congr_raised {line other : String}
    (h : (trim line.toList).map Hex.raised = (trim other.toList).map Hex.raised) :
    Record.parse line = Record.parse other := by
  by_cases hrecord : ∃ (kind : Kind) (body : List Char),
      trim line.toList = 'S' :: kind.digit :: body
  · obtain ⟨kind, body, split⟩ := hrecord
    obtain ⟨body', split', hbody⟩ := split_of_map_raised h split
    rw [parse_of_kind split, parse_of_kind split', Record.parseBody, Record.parseBody,
      ← Hex.decode_map_raised body, ← Hex.decode_map_raised body', hbody]
  · have hother : ∀ (kind : Kind) (body : List Char),
        trim other.toList ≠ 'S' :: kind.digit :: body := by
      intro kind body split
      obtain ⟨body', split', -⟩ := split_of_map_raised h.symm split
      exact hrecord ⟨kind, body', split'⟩
    rw [parse_of_no_record hother,
      parse_of_no_record fun kind body split => hrecord ⟨kind, body, split⟩]

/-- The first and the last byte of a record do not count. -/
theorem parse_congr_inner {line other : String} {kind : Kind} {body body' : List Char}
    {bytes bytes' : List UInt8} (split : trim line.toList = 'S' :: kind.digit :: body)
    (split' : trim other.toList = 'S' :: kind.digit :: body')
    (field : Hex.Carries (encodeUtf8 body) bytes) (field' : Hex.Carries (encodeUtf8 body') bytes')
    (hlength : bytes.length = bytes'.length)
    (hinner : bytes.tail.dropLast = bytes'.tail.dropLast) :
    Record.parse line = Record.parse other := by
  rw [parse_of_carries split field, parse_of_carries split' field', ofBytes_eq, ofBytes_eq,
    hlength, hinner]

/-! ## Reading by position -/

/-- The elements from position `start` up to `stop`, if these are positions of
the list and in order. -/
def slice? {α : Type} (xs : List α) (start stop : Nat) : Option (List α) :=
  if start ≤ stop ∧ stop ≤ xs.length then some ((xs.take stop).drop start) else none

/-- A text from byte `n` on, if a character begins there or the text ends. -/
def fromByte? : Nat → List Char → Option (List Char)
  | 0, cs => some cs
  | _ + 1, [] => none
  | n + 1, c :: cs => if c.utf8Size ≤ n + 1 then fromByte? (n + 1 - c.utf8Size) cs else none

/-- The record that bytes make, by the positions of its parts.  There is no
answer if a part is asked for that is not there. -/
def Record.ofSlices (kind : Kind) (bytes : List UInt8) : Option (Except FormatError Record) :=
  if bytes.length < kind.minimumSize then some (.error (.truncated kind bytes.length))
  else do
    let place ← slice? bytes 1 (1 + kind.width.size)
    let address := BigEndian.gathered place
    match kind with
    | .data width =>
      let payload ← slice? bytes (1 + width.size) (bytes.length - 1)
      return .ok (.data address payload)
    | .start _ => return .ok (.start address)

/-- Read one line by the positions of its parts. -/
def Record.parseByPosition (line : String) : Option (Except FormatError (Option Record)) :=
  match trim line.toList with
  | 'S' :: rest =>
    match rest.head?.bind Kind.ofDigit? with
    | none => some (.ok none)
    | some kind => do
      let body ← fromByte? 1 rest
      match Hex.decode (encodeUtf8 body) with
      | .error fault => return .error (.invalidHex fault)
      | .ok bytes => return (← Record.ofSlices kind bytes).map some
  | _ => some (.ok none)

theorem slice?_eq {α : Type} {xs : List α} {start stop : Nat} (h : start ≤ stop)
    (h' : stop ≤ xs.length) : slice? xs start stop = some ((xs.take stop).drop start) :=
  if_pos ⟨h, h'⟩

/-- Every part of a record is there once there are enough bytes for its kind. -/
theorem ofSlices_eq (kind : Kind) (bytes : List UInt8) :
    Record.ofSlices kind bytes = some (Record.ofBytes kind bytes) := by
  unfold Record.ofSlices Record.ofBytes
  split
  · rfl
  · rename_i hlong
    have hsize : kind.width.size ≤ 4 := by cases kind.width <;> decide
    have hlength : 1 + kind.width.size + 1 ≤ bytes.length := Nat.le_of_not_lt hlong
    have hplace : slice? bytes 1 (1 + kind.width.size) =
        some ((bytes.drop 1).take kind.width.size) := by
      rw [slice?_eq (by omega) (by omega), List.drop_take, Nat.add_sub_cancel_left]
    have haddress : BigEndian.gathered ((bytes.drop 1).take kind.width.size) =
        UInt32.ofNat (BigEndian.value ((bytes.drop 1).take kind.width.size)) := by
      rw [← BigEndian.toNat_gathered ((List.length_take_le _ _).trans hsize), UInt32.ofNat_toNat]
    rw [hplace]
    cases kind with
    | start width => simp only [Option.bind_eq_bind, Option.bind_some, haddress]; rfl
    | data width =>
      have hpayload : slice? bytes (1 + width.size) (bytes.length - 1) =
          some (bytes.drop (1 + width.size)).dropLast := by
        rw [slice?_eq (by simp only [Kind.width] at hlength; omega) (by omega), List.drop_take,
          List.dropLast_eq_take, List.length_drop, Nat.sub_right_comm]
      simp only [Option.bind_eq_bind, Option.bind_some, haddress, hpayload]
      rfl

/-- The first character of a field is the second behind a kind digit, which
takes one byte. -/
theorem fromByte?_digit (kind : Kind) (body : List Char) :
    fromByte? 1 (kind.digit :: body) = some body := by
  have hsize : kind.digit.utf8Size = 1 := by
    cases kind with
    | data width => cases width <;> rfl
    | start width => cases width <;> rfl
  rw [fromByte?, hsize, if_pos (Nat.le_refl 1), Nat.sub_self, fromByte?]

theorem parseByPosition_of_kind {line : String} {kind : Kind} {body : List Char}
    (h : trim line.toList = 'S' :: kind.digit :: body) :
    Record.parseByPosition line = some ((Record.parseBody kind body).map some) := by
  rw [Record.parseByPosition, h]
  simp only [List.head?_cons, Option.bind_some, ofDigit?_digit, fromByte?_digit,
    Option.bind_eq_bind, Record.parseBody]
  cases Hex.decode (encodeUtf8 body) with
  | error fault => rfl
  | ok bytes =>
    simp only [ofSlices_eq]
    rfl

theorem parseByPosition_of_no_record {line : String}
    (h : ∀ (kind : Kind) (body : List Char), trim line.toList ≠ 'S' :: kind.digit :: body) :
    Record.parseByPosition line = some (.ok none) := by
  unfold Record.parseByPosition
  split
  · rename_i rest hline
    split
    · rfl
    · rename_i kind hkind
      obtain ⟨digit, hdigit, hof⟩ := Option.bind_eq_some_iff.1 hkind
      rw [ofDigit?_eq_some_iff] at hof
      obtain ⟨body, rfl⟩ := List.head?_eq_some_iff.1 hdigit
      exact absurd (hof ▸ hline) (h kind body)
  · rfl

/-- No part of a line is asked for that is not there. -/
theorem parseByPosition_eq (line : String) :
    Record.parseByPosition line = some (Record.parse line) := by
  by_cases hrecord : ∃ (kind : Kind) (body : List Char),
      trim line.toList = 'S' :: kind.digit :: body
  · obtain ⟨kind, body, split⟩ := hrecord
    rw [parseByPosition_of_kind split, parse_of_kind split]
  · have hnone : ∀ (kind : Kind) (body : List Char),
        trim line.toList ≠ 'S' :: kind.digit :: body :=
      fun kind body split => hrecord ⟨kind, body, split⟩
    rw [parseByPosition_of_no_record hnone, parse_of_no_record hnone]

/-! ## The grammar -/

theorem mem_kindDigits (digit : Char) :
    digit ∈ "123789".toList ↔ ∃ kind : Kind, kind.digit = digit := by
  constructor
  · intro h
    have hkinds : "123789".toList = [Kind.data .two, .data .three, .data .four, .start .four,
        .start .three, .start .two].map Kind.digit := rfl
    rw [hkinds, List.mem_map] at h
    obtain ⟨kind, -, hkind⟩ := h
    exact ⟨kind, hkind⟩
  · rintro ⟨width | width, rfl⟩ <;> cases width <;> decide

/-- Only a line that is no record is read as nothing. -/
theorem parse_eq_none_iff (line : String) :
    Record.parse line = .ok none ↔
      ∀ digit ∈ "123789".toList, ∀ body, trim line.toList ≠ 'S' :: digit :: body := by
  rw [parse_eq_iff_reading]
  constructor
  · intro h digit hdigit body
    cases h with
    | skipped noRecord =>
      obtain ⟨kind, rfl⟩ := (mem_kindDigits digit).1 hdigit
      exact noRecord kind body
  · exact fun h => .skipped fun kind => h kind.digit ((mem_kindDigits kind.digit).2 ⟨kind, rfl⟩)

/-- Every line is read in the one way its text has.  Data records of kinds 1, 2
and 3 have addresses of 2, 3 and 4 bytes, start records of kinds 7, 8 and 9 such
of 4, 3 and 2, and a complaint about the size asks for two bytes more.  Neither
the case of the digits nor the count and the checksum have a part in it, and
reading by position finds every part where it is looked for. -/
theorem lines_read_by_grammar (line : String) :
    let t := trim line.toList
    (∀ width : Width,
      ((Kind.data width).digit, width.size) ∈ [('1', 2), ('2', 3), ('3', 4)] ∧
      ((Kind.start width).digit, width.size) ∈ [('7', 4), ('8', 3), ('9', 2)] ∧
      (Kind.data width).minimumSize = width.size + 2 ∧
      (Kind.start width).minimumSize = width.size + 2) ∧
    (∀ outcome, Record.parse line = outcome ↔ Reading t outcome) ∧
    (Record.parse line = .ok none ↔
      ∀ digit ∈ "123789".toList, ∀ body, t ≠ 'S' :: digit :: body) ∧
    (∀ other : String, t.map Hex.raised = (trim other.toList).map Hex.raised →
      Record.parse line = Record.parse other) ∧
    (∀ (kind : Kind) (body : List Char) (bytes : List UInt8), t = 'S' :: kind.digit :: body →
      Hex.Carries (encodeUtf8 body) bytes →
      ∀ (other : String) (body' : List Char) (bytes' : List UInt8),
        trim other.toList = 'S' :: kind.digit :: body' → Hex.Carries (encodeUtf8 body') bytes' →
        bytes.length = bytes'.length → bytes.tail.dropLast = bytes'.tail.dropLast →
        Record.parse line = Record.parse other) ∧
    Record.parseByPosition line = some (Record.parse line) := by
  refine ⟨fun width => ?_, parse_eq_iff_reading line, parse_eq_none_iff line,
    fun other => parse_congr_raised, ?_, parseByPosition_eq line⟩
  · cases width <;> decide
  · intro kind body bytes split field other body' bytes' split' field'
    exact parse_congr_inner split split' field field'

/-- A record between a space and a carriage return, and its lines with other
letters and with another count and checksum. -/
theorem mixed_case_record_is_read :
    let line := " S1058000deAd70\r"
    Record.parse line = .ok (some (.data 0x8000 [0xDE, 0xAD])) ∧
    Record.parse line = Record.parse "S1058000DEaD70" ∧
    Record.parse line = Record.parse "S1FF8000DEAD00" := by
  intro line
  have hfield : Hex.Carries (encodeUtf8 "058000deAd70".toList)
      (0x05 :: ([0x80, 0x00] ++ [0xDE, 0xAD] ++ [0x70])) := Hex.carries_of_decode (by decide)
  have hother : Hex.Carries (encodeUtf8 "FF8000DEAD00".toList)
      (0xFF :: ([0x80, 0x00] ++ [0xDE, 0xAD] ++ [0x00])) := Hex.carries_of_decode (by decide)
  have hline : trim line.toList = 'S' :: (Kind.data .two).digit :: "058000deAd70".toList := by
    decide
  obtain ⟨-, hreading, -, hcase, hinner, -⟩ := lines_read_by_grammar line
  exact ⟨(hreading _).2 (.data hline hfield rfl (by decide)), hcase _ (by decide),
    hinner _ _ _ hline hfield _ _ _ (by decide) hother rfl rfl⟩

end Monitor68.SRecord
