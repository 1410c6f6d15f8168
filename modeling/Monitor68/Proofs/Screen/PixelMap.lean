import Monitor68.Proofs.Bytes.Hex
import Monitor68.Screen.Compose

/-!
# Pixel maps read back

A portable pixel map is a header in text and the bytes of the pixels right
behind it.  The bytes may be anything, also digits and white space, so that
it is not plain where the header ends.  `Reads` is the grammar: it says what
a reader of pixel maps may take from a stream, and leaves open where the
stream is cut.

A picture is read in one way only (`pixel_map_reads_back`).  The numbers of
the header are fields of white space and digits, and a field ends where its
run of digits ends (`Field.unique`).  Behind the last one there is exactly
one byte of white space, whatever the first pixel looks like.
-/

namespace Monitor68.PixelMap

open Text Numeral

/-! ## The grammar -/

/-- The white space of ASCII. -/
def isSpace (b : UInt8) : Bool := b == 0x20 || (0x09 ≤ b && b ≤ 0x0D)

/-- A field of a header: white space, and behind it the decimal digits of a
number. -/
inductive Field : List UInt8 → Nat → Prop where
  | intro {gap : List UInt8} {digits : List Char} {n : Nat}
      (gap_ne_nil : gap ≠ []) (space : ∀ b ∈ gap, isSpace b = true)
      (digits_ne_nil : digits ≠ []) (denotes : Denotes decimals digits n) :
      Field (gap ++ encodeUtf8 digits) n

/-- A stream is read as a pixel map of a width and a height with these pixels,
row by row, and the rest is left over. -/
inductive Reads : List UInt8 → (width height : Nat) → List Color → List UInt8 → Prop where
  | intro {first second gap rest : List UInt8} {separator : UInt8} {width height : Nat}
      {pixels : List Color}
      (width_field : Field first width) (height_field : Field second height)
      (gap_ne_nil : gap ≠ []) (space : ∀ b ∈ gap, isSpace b = true)
      (separates : isSpace separator = true) (count : pixels.length = width * height) :
      Reads (encodeUtf8 "P6".toList ++ (first ++ (second ++ (gap ++ encodeUtf8 "255".toList ++
        separator :: (pixels.flatMap Color.bytes ++ rest))))) width height pixels rest

/-! ## Runs -/

/-- Two runs with something else behind them end at the same place if the whole
is the same. -/
theorem run_unique {α : Type} {p : α → Bool} {run run' back back' : List α}
    (hrun : ∀ a ∈ run, p a = true) (hrun' : ∀ a ∈ run', p a = true)
    (hback : ∀ a ∈ back.head?, p a = false) (hback' : ∀ a ∈ back'.head?, p a = false)
    (h : run ++ back = run' ++ back') : run = run' ∧ back = back' := by
  have hstops : ∀ {back : List α}, (∀ a ∈ back.head?, p a = false) → back.takeWhile p = [] := by
    intro back hback
    cases back with
    | nil => rfl
    | cons a back => exact List.takeWhile_cons_of_neg (by simp [hback a rfl])
  have htake := congrArg (List.takeWhile p) h
  rw [List.takeWhile_append_of_pos hrun, List.takeWhile_append_of_pos hrun', hstops hback,
    hstops hback', List.append_nil, List.append_nil] at htake
  subst htake
  exact ⟨rfl, List.append_cancel_left h⟩

/-- What begins with a run begins with none of what the run excludes. -/
theorem head_of_run {α : Type} {p q : α → Bool} {run : List α} (hne : run ≠ [])
    (hrun : ∀ a ∈ run, p a = true) (hother : ∀ a, p a = true → q a = false) (back : List α) :
    ∀ a ∈ (run ++ back).head?, q a = false := by
  obtain ⟨first, run, rfl⟩ := List.exists_cons_of_ne_nil hne
  intro a ha
  cases ha
  exact hother first (hrun first List.mem_cons_self)

/-! ## Fields -/

def isDigit (b : UInt8) : Bool := 0x30 ≤ b && b ≤ 0x39

theorem not_digit_of_space (b : UInt8) : isSpace b = true → isDigit b = false :=
  Bytes.Hex.forall_byte (by decide +kernel) b

theorem not_space_of_digit (b : UInt8) : isDigit b = true → isSpace b = false :=
  Bytes.Hex.forall_byte (by decide +kernel) b

/-- A numeral is encoded in bytes that are digits. -/
theorem isDigit_of_mem {digits : List Char} {n : Nat} (h : Denotes decimals digits n) {b : UInt8}
    (hb : b ∈ encodeUtf8 digits) : isDigit b = true := by
  have hall : decimals.all (fun c => (String.utf8EncodeChar c).all isDigit) = true := by decide
  obtain ⟨c, hc, hb⟩ := List.mem_flatMap.1 hb
  exact List.all_eq_true.1 (List.all_eq_true.1 hall c (h.mem c hc)) b hb

theorem encodeUtf8_injective : Function.Injective encodeUtf8 := by
  intro cs ds h
  have hread : decodeUtf8 (encodeUtf8 cs) = decodeUtf8 (encodeUtf8 ds) := congrArg decodeUtf8 h
  rw [decodeUtf8_encodeUtf8, decodeUtf8_encodeUtf8] at hread
  exact String.ofList_injective (Option.some.inj hread)

/-- A field begins with white space, and so with no digit. -/
theorem Field.not_digit {field : List UInt8} {n : Nat} (h : Field field n) (back : List UInt8) :
    ∀ b ∈ (field ++ back).head?, isDigit b = false := by
  obtain ⟨hne, hspace, -, -⟩ := h
  rw [List.append_assoc]
  exact head_of_run hne hspace not_digit_of_space _

/-- Two fields that begin the same stream are the same number, and end at the
same place. -/
theorem Field.unique {field field' back back' : List UInt8} {n n' : Nat} (h : Field field n)
    (h' : Field field' n') (hback : ∀ b ∈ back.head?, isDigit b = false)
    (hback' : ∀ b ∈ back'.head?, isDigit b = false) (hsame : field ++ back = field' ++ back') :
    n = n' ∧ back = back' := by
  obtain ⟨-, hspace, hne, hdenotes⟩ := h
  obtain ⟨-, hspace', hne', hdenotes'⟩ := h'
  have hdigit := fun b => isDigit_of_mem hdenotes (b := b)
  have hdigit' := fun b => isDigit_of_mem hdenotes' (b := b)
  rw [List.append_assoc, List.append_assoc] at hsame
  obtain ⟨-, hdigits⟩ := run_unique hspace hspace'
    (head_of_run (encodeUtf8_injective.ne hne) hdigit not_space_of_digit back)
    (head_of_run (encodeUtf8_injective.ne hne') hdigit' not_space_of_digit back') hsame
  obtain ⟨hnumerals, hrest⟩ := run_unique hdigit hdigit' hback hback' hdigits
  rw [encodeUtf8_injective hnumerals] at hdenotes
  exact ⟨hdenotes.unique hdenotes', hrest⟩

/-- White space and a number in decimal are a field. -/
theorem field_decimal {b : UInt8} (h : isSpace b = true) (n : Nat) :
    Field ([b] ++ encodeUtf8 (Nat.toDigits 10 n)) n :=
  .intro (List.cons_ne_nil b []) (by simpa using h) Nat.toDigits_ne_nil (denotes_toDigits n)

/-! ## Pictures -/

theorem colors_pixels (pixels : List Color) :
    Screen.colors (pixels.flatMap Color.bytes) = pixels := by
  induction pixels with
  | nil => rfl
  | cons c pixels ih =>
    rw [List.flatMap_cons]
    show c :: Screen.colors (pixels.flatMap Color.bytes) = c :: pixels
    rw [ih]

theorem length_pixels (pixels : List Color) :
    (pixels.flatMap Color.bytes).length = 3 * pixels.length := by
  induction pixels with
  | nil => rfl
  | cons c pixels ih =>
    have hlength : c.bytes.length = 3 := rfl
    rw [List.flatMap_cons, List.length_append, ih, hlength, List.length_cons]
    omega

/-- The bytes of a picture, field by field. -/
theorem toPixelMap_eq (f : Frame) :
    f.toPixelMap = encodeUtf8 "P6".toList ++
      (0x0A :: encodeUtf8 (Nat.toDigits 10 f.width.toNat) ++
        (0x20 :: encodeUtf8 (Nat.toDigits 10 f.height.toNat) ++
          ([0x0A] ++ encodeUtf8 "255".toList ++
            0x0A :: (f.pixels.toList.flatMap Color.bytes ++ [])))) := by
  have hheader : f.header.toList = "P6".toList ++ ('\n' :: Nat.toDigits 10 f.width.toNat ++
      (' ' :: Nat.toDigits 10 f.height.toNat ++ ("\n255\n".toList))) := by
    simp [Frame.header, decimal, toString]
  have hline : String.utf8EncodeChar '\n' = [0x0A] := rfl
  have hblank : String.utf8EncodeChar ' ' = [0x20] := rfl
  rw [Frame.toPixelMap, hheader, Frame.pixelBytes, List.append_nil]
  simp [encodeUtf8, hline, hblank]

/-- The greatest intensity is a field like the others. -/
theorem field_intensity {gap : List UInt8} (hne : gap ≠ []) (hspace : ∀ b ∈ gap, isSpace b = true) :
    Field (gap ++ encodeUtf8 "255".toList) 255 := by
  have hdenotes : Denotes decimals "255".toList 255 := denotes_toDigits 255
  exact .intro hne hspace (by decide) hdenotes

/-- A picture is read as a pixel map in one way only: with its own width, height
and pixels, and with nothing left over. -/
theorem pixel_map_reads_back (f : Frame)
    (hsize : f.pixels.size = f.width.toNat * f.height.toNat) (width height : Nat)
    (pixels : List Color) (rest : List UInt8) :
    Reads f.toPixelMap width height pixels rest ↔
      width = f.width.toNat ∧ height = f.height.toNat ∧ pixels = f.pixels.toList ∧ rest = [] := by
  have hwidth := field_decimal (by decide : isSpace 0x0A = true) f.width.toNat
  have hheight := field_decimal (by decide : isSpace 0x20 = true) f.height.toNat
  have hgap : ∀ b ∈ [(0x0A : UInt8)], isSpace b = true := List.forall_mem_singleton.2 rfl
  rw [toPixelMap_eq]
  constructor
  · intro h
    generalize hstream : encodeUtf8 "P6".toList ++ _ = stream at h
    obtain ⟨hwidth', hheight', hne', hgap', hseparates', hcount⟩ := h
    have hintensity := field_intensity (List.cons_ne_nil _ _) hgap
    have hintensity' := field_intensity hne' hgap'
    obtain ⟨rfl, hstream⟩ := hwidth.unique hwidth' (hheight.not_digit _) (hheight'.not_digit _)
      (List.append_cancel_left hstream)
    obtain ⟨rfl, hstream⟩ := hheight.unique hheight' (hintensity.not_digit _)
      (hintensity'.not_digit _) hstream
    obtain ⟨-, hstream⟩ := hintensity.unique hintensity'
      (by simpa using not_digit_of_space _ (hgap _ List.mem_cons_self))
      (by simpa using not_digit_of_space _ hseparates') hstream
    -- The numbers tell how many bytes the pixels take, so nothing is left behind them.
    obtain ⟨-, hstream⟩ := List.cons.inj hstream
    have hlength :
        (f.pixels.toList.flatMap Color.bytes).length = (pixels.flatMap Color.bytes).length := by
      rw [length_pixels, length_pixels, hcount, Array.length_toList, hsize]
    obtain ⟨hpixels, hrest⟩ := List.append_inj hstream hlength
    have hcolors := congrArg Screen.colors hpixels
    rw [colors_pixels, colors_pixels] at hcolors
    exact ⟨rfl, rfl, hcolors.symm, hrest.symm⟩
  · rintro ⟨rfl, rfl, rfl, rfl⟩
    exact .intro hwidth hheight (List.cons_ne_nil _ _) hgap (by decide) hsize

/-- A picture whose pixels go on as the header might: with a blank, digits and a
line feed. -/
def misleading : Frame where
  width := 2
  height := 1
  pixels := #[⟨0x20, 0x35, 0x0A⟩, ⟨0x32, 0x35, 0x35⟩]

theorem misleading_reads_back :
    misleading.pixels.size = misleading.width.toNat * misleading.height.toNat ∧
      misleading.toPixelMap = encodeUtf8 "P6\n2 1\n255\n 5\n255".toList ∧
      Reads misleading.toPixelMap 2 1 [⟨0x20, 0x35, 0x0A⟩, ⟨0x32, 0x35, 0x35⟩] [] := by
  have hsize : misleading.pixels.size = misleading.width.toNat * misleading.height.toNat := rfl
  refine ⟨hsize, by decide +kernel, ?_⟩
  exact (pixel_map_reads_back misleading hsize 2 1 _ []).2 ⟨rfl, rfl, rfl, rfl⟩

end Monitor68.PixelMap
