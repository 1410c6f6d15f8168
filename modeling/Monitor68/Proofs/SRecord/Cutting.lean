import Monitor68.Proofs.Bytes.Hex
import Monitor68.Proofs.SRecord.RoundTrip

/-!
# Record lines that were cut

The count of a record is not compared with the bytes behind it.  A line that
lost its end is refused only if it ends within a byte, or with its address at
the latest.  Any longer part of a line is a record in its own right: it has the
address of the whole, and of its payload what is left when the last byte is
taken for a checksum.
-/

namespace Monitor68.SRecord

open Monitor68.Bytes Monitor68.Text

variable {kind : Kind} {bytes : List UInt8} {cut : String} {n : Nat}

/-! ## Reading a cut line -/

theorem length_encodeUtf8_of_upperDigits {cs : List Char} (h : ∀ c ∈ cs, c ∈ upperDigits) :
    (encodeUtf8 cs).length = cs.length := by
  have hall : upperDigits.all (fun c => decide (c.toNat < 128)) = true := by decide
  have hascii : ∀ c ∈ upperDigits, c.toNat < 128 := fun c hc =>
    of_decide_eq_true (List.all_eq_true.1 hall c hc)
  induction cs with
  | nil => rfl
  | cons c cs ih =>
    obtain ⟨hc, hcs⟩ := List.forall_mem_cons.1 h
    have hone : encodeUtf8 (c :: cs) = UInt8.ofNat c.toNat :: encodeUtf8 cs := by
      rw [encodeUtf8, List.flatMap_cons, utf8EncodeChar_ascii (hascii c hc)]
      rfl
    rw [hone, List.length_cons, List.length_cons, ih hcs]

/-- The first digits of a record are read without the rest. -/
theorem parse_cut (h : cut.toList = 'S' :: kind.digit :: (Hex.encode bytes).take n) :
    Record.parse cut = (Record.parseBody kind ((Hex.encode bytes).take n)).map some := by
  have hword : IsWord ('S' :: kind.digit :: (Hex.encode bytes).take n) :=
    isWord_record kind fun c hc => mem_upperDigits_of_mem_encode (List.mem_of_mem_take hc)
  have hgap : IsGap [] := nofun
  have htrim := trim_word hgap hgap hword
  rw [List.nil_append, List.append_nil, ← h] at htrim
  exact parse_of_kind (htrim.trans h)

/-- A line that ends within a byte is refused. -/
theorem parse_cut_within_byte (h : cut.toList = 'S' :: kind.digit :: (Hex.encode bytes).take n)
    (hle : n ≤ 2 * bytes.length) (hodd : n % 2 = 1) :
    Record.parse cut = .error (.invalidHex .oddLength) := by
  have hlength : (encodeUtf8 ((Hex.encode bytes).take n)).length = n := by
    rw [length_encodeUtf8_of_upperDigits fun c hc =>
      mem_upperDigits_of_mem_encode (List.mem_of_mem_take hc), List.length_take,
      Hex.length_encode, Nat.min_eq_left hle]
  rw [parse_cut h, Record.parseBody, Hex.decode_of_odd (by rw [hlength]; exact hodd)]
  rfl

/-- A line that ends between two bytes is read as the bytes in front. -/
theorem parse_cut_between_bytes
    (h : cut.toList = 'S' :: kind.digit :: (Hex.encode bytes).take (2 * n)) :
    Record.parse cut = (Record.ofBytes kind (bytes.take n)).map some := by
  rw [parse_cut h, Hex.take_encode, Record.parseBody, Hex.decode_encode]

/-- Of the first bytes of a record, the last is not taken for a part of the
payload. -/
theorem inner_take {place payload : List UInt8} (count check : UInt8) {m : Nat}
    (h : m < payload.length) :
    ((count :: (place ++ payload ++ [check])).take (place.length + 2 + m)).tail.dropLast =
      place ++ payload.take m := by
  have htake : (count :: (place ++ payload ++ [check])).take (place.length + 2 + m) =
      count :: (place ++ payload.take (m + 1)) := by
    rw [show place.length + 2 + m = place.length + (m + 1) + 1 by omega, List.take_succ_cons,
      List.append_assoc, List.take_length_add_append, List.take_append_of_le_length h]
  have hpayload : payload.take (m + 1) ≠ [] :=
    List.ne_nil_of_length_pos (by rw [List.length_take]; omega)
  have hlast : (payload.take (m + 1)).dropLast = payload.take m := by
    rw [List.dropLast_eq_take, List.length_take, Nat.min_eq_left h, Nat.succ_sub_one,
      List.take_take, Nat.min_eq_left (Nat.le_succ m)]
  rw [htake, List.tail_cons, List.dropLast_append_of_ne_nil hpayload, hlast]

/-- The first bytes of a record are too few, or a record at the same address. -/
theorem ofBytes_take_front (kind : Kind) {address : UInt32} {payload : List UInt8}
    (check : UInt8) (hfits : address.toNat < Nat.pow 256 kind.width.size)
    (hn : n < kind.width.size + payload.length + 2) :
    Record.ofBytes kind ((Record.front kind address payload ++ [check]).take n) =
      if n < kind.width.size + 2 then .error (.truncated kind n)
      else .ok (kind.record address (payload.take (n - (kind.width.size + 2)))) := by
  let place := BigEndian.bytes kind.width.size address.toNat
  have hplace : place.length = kind.width.size := BigEndian.length_bytes _ _
  have hlength : ((Record.front kind address payload ++ [check]).take n).length = n := by
    rw [List.length_take, Nat.min_eq_left]
    simp only [Record.front, List.length_append, List.length_cons, List.length_nil,
      BigEndian.length_bytes]
    omega
  rw [ofBytes_eq, hlength]
  split
  · rfl
  · rename_i hlong
    obtain ⟨m, rfl⟩ := Nat.exists_eq_add_of_le (Nat.le_of_not_lt hlong)
    have hinner : ((Record.front kind address payload ++ [check]).take
        (kind.width.size + 2 + m)).tail.dropLast = place ++ payload.take m := by
      rw [← hplace]
      exact inner_take _ check (by omega)
    have haddress : UInt32.ofNat (BigEndian.value place) = address := by
      rw [BigEndian.value_bytes, Nat.mod_eq_of_lt hfits, UInt32.ofNat_toNat]
    simp only [hinner, List.take_left' hplace, List.drop_left' hplace, haddress,
      Nat.add_sub_cancel_left]

/-- A part of a written line that has the kind digit is refused if its end lies
within a byte, or if it has no byte behind the address.  Any longer part is
read as a data record at the same address with a shorter payload. -/
theorem cut_line_is_read {address : UInt32} {payload : List UInt8} {line : String}
    (hline : Record.writeData address payload = .ok line) (cut : String)
    (hfront : cut.toList <+: line.toList) (htwo : 2 ≤ cut.length)
    (hproper : cut.length < line.length) :
    let width := Width.forAddress address
    let got := (cut.length - 2) / 2
    Record.parse cut =
      (if cut.length % 2 = 1 then .error (.invalidHex .oddLength)
      else if got < width.size + 2 then .error (.truncated (.data width) got)
      else .ok (some (.data address (payload.take (got - (width.size + 2)))))) ∧
    (width.size + 2 ≤ got → got - (width.size + 2) < payload.length) := by
  intro width got
  let front := Record.front (.data width) address payload
  let bytes := front ++ [checksum front]
  obtain ⟨-, rfl⟩ := (write_ok_iff (.data width) address payload line).1 hline
  have hwhole : (Record.line (.data width) address payload).toList =
      'S' :: (Kind.data width).digit :: Hex.encode bytes := String.toList_ofList
  have hbytes : bytes.length = width.size + payload.length + 2 := by
    simp only [bytes, front, Record.front, List.length_append, List.length_cons, List.length_nil,
      BigEndian.length_bytes, Kind.width]
  have hcut : cut.toList = 'S' :: (Kind.data width).digit ::
      (Hex.encode bytes).take (cut.length - 2) := by
    rw [List.prefix_iff_eq_take.1 hfront, hwhole, String.length_toList]
    obtain ⟨n, hn⟩ := Nat.exists_eq_add_of_le' htwo
    rw [hn, List.take_succ_cons, List.take_succ_cons, Nat.add_sub_cancel]
  have hshort : cut.length < 2 * bytes.length + 2 := by
    rw [← String.length_toList, ← String.length_toList, hwhole, List.length_cons, List.length_cons,
      Hex.length_encode, String.length_toList] at hproper
    exact hproper
  refine ⟨?_, fun hlong => by omega⟩
  by_cases hodd : cut.length % 2 = 1
  · rw [if_pos hodd]
    exact parse_cut_within_byte hcut (by omega) (by omega)
  rw [if_neg hodd]
  have heven : cut.length - 2 = 2 * got := by omega
  have hread : Record.ofBytes (.data width) (bytes.take got) =
      if got < width.size + 2 then .error (.truncated (.data width) got)
      else .ok (.data address (payload.take (got - (width.size + 2)))) :=
    ofBytes_take_front (.data width) _ (forAddress_narrowest address).1
      (by show got < width.size + payload.length + 2; omega)
  rw [parse_cut_between_bytes (heven ▸ hcut), hread]
  by_cases hlow : got < width.size + 2
  · rw [if_pos hlow, if_pos hlow]
    rfl
  · rw [if_neg hlow, if_neg hlow]
    rfl

/-- A record of two bytes without its checksum, and one cut behind its address. -/
theorem cut_lines_of_two_bytes :
    Record.writeData 0x8000 [0xDE, 0xAD] = .ok "S1058000DEADEF" ∧
    Record.parse "S1058000DEAD" = .ok (some (.data 0x8000 [0xDE])) ∧
    Record.parse "S1058000" = .error (.truncated (.data .two) 3) := by
  have hline : Record.writeData 0x8000 [0xDE, 0xAD] = .ok "S1058000DEADEF" := rfl
  obtain ⟨hlong, -⟩ := cut_line_is_read hline "S1058000DEAD" (by decide) (by decide) (by decide)
  obtain ⟨hshort, -⟩ := cut_line_is_read hline "S1058000" (by decide) (by decide) (by decide)
  exact ⟨hline, hlong, hshort⟩

/-- Not every cut line is refused. -/
theorem some_cut_line_is_accepted :
    ¬ ∀ (address : UInt32) (payload : List UInt8) (line cut : String),
      Record.writeData address payload = .ok line → cut.toList <+: line.toList →
      2 ≤ cut.length → cut.length < line.length → ∃ error, Record.parse cut = .error error := by
  intro h
  obtain ⟨error, herror⟩ :=
    h 0x8000 [0xDE, 0xAD] "S1058000DEADEF" "S1058000DEAD" rfl (by decide) (by decide) (by decide)
  have hread : Record.parse "S1058000DEAD" = .ok (some (.data 0x8000 [0xDE])) := rfl
  rw [hread] at herror
  cases herror

end Monitor68.SRecord
