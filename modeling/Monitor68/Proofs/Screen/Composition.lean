import Monitor68.Proofs.Target.Blocks
import Monitor68.Screen.Compose

/-!
# What a composed frame shows

A frame is composed row by row from a buffer of indices and a palette of
colours.  Seen from its pixels this is one formula: the pixel in row `y`
and column `x` has the colour that the palette gives to the index in cell
`y * width + x` of the buffer, or to the first index if the status byte
asks for a fill.

`compose_exact` says when there is a frame and that it is this one.  The
layout is looked at before anything is read, and it is what keeps the
addresses of the rows from wrapping around.
-/

namespace Monitor68.Screen

/-! ## Addresses -/

/-- The place of the status byte, which wraps around at the top. -/
def statusPlace (l : Layout) : Nat := (l.base.toNat + 0x20400) % UInt32.size

/-- The place of the palette, which wraps around at the top. -/
def palettePlace (l : Layout) : Nat := (l.base.toNat + 0x20000) % UInt32.size

theorem toNat_statusAddress (l : Layout) : l.statusAddress.toNat = statusPlace l :=
  UInt32.toNat_add _ _

theorem toNat_paletteAddress (l : Layout) : l.paletteAddress.toNat = palettePlace l :=
  UInt32.toNat_add _ _

theorem fitsAt_iff (l : Layout) (buffer : UInt32) :
    l.fitsAt buffer = true ↔
      l.pixelCount < UInt32.size ∧ buffer.toNat + l.pixelCount < UInt32.size := by
  unfold Layout.fitsAt Layout.frameLength?
  by_cases hsize : l.pixelCount < UInt32.size
  · have hlength : (UInt32.ofNat l.pixelCount).toNat = l.pixelCount := Nat.mod_eq_of_lt hsize
    simp [hsize, hlength]
  · simp [hsize]

/-- The pixels of a picture are counted row by row, and the count does not wrap
around if it does not for the last of them. -/
theorem toNat_pixelNumber {width height x y : UInt32}
    (hsize : width.toNat * height.toNat < UInt32.size) (hx : x < width) (hy : y < height) :
    (y * width + x).toNat = y.toNat * width.toNat + x.toNat ∧
      (y * width + x).toNat < width.toNat * height.toNat := by
  rw [UInt32.lt_iff_toNat_lt] at hx hy
  have hrows : (y.toNat + 1) * width.toNat ≤ height.toNat * width.toNat :=
    Nat.mul_le_mul_right width.toNat hy
  rw [Nat.succ_mul, Nat.mul_comm height.toNat] at hrows
  have hlt : y.toNat * width.toNat + x.toNat < width.toNat * height.toNat := by omega
  have hend := Nat.lt_trans hlt hsize
  have hdistance : (y * width).toNat = y.toNat * width.toNat := by
    rw [UInt32.toNat_mul]
    exact Nat.mod_eq_of_lt (Nat.lt_of_le_of_lt (Nat.le_add_right _ _) hend)
  have hnumber : (y * width + x).toNat = y.toNat * width.toNat + x.toNat := by
    rw [UInt32.toNat_add, hdistance]
    exact Nat.mod_eq_of_lt hend
  exact ⟨hnumber, by rwa [hnumber]⟩

/-- Neither the distance nor the address of a row of a buffer that fits wraps
around. -/
theorem toNat_rowAddress {l : Layout} {buffer y : UInt32} (h : l.fitsAt buffer = true)
    (hy : y < l.height) :
    (y * l.width).toNat = y.toNat * l.width.toNat ∧
      (l.rowAddress buffer y).toNat = buffer.toNat + y.toNat * l.width.toNat := by
  obtain ⟨hsize, hend⟩ := (fitsAt_iff l buffer).1 h
  have hrow : y.toNat * l.width.toNat ≤ l.pixelCount := by
    rw [Layout.pixelCount, Nat.mul_comm l.width.toNat]
    exact Nat.mul_le_mul_right _ (Nat.le_of_lt hy)
  have hdistance : (y * l.width).toNat = y.toNat * l.width.toNat := by
    rw [UInt32.toNat_mul]
    exact Nat.mod_eq_of_lt (Nat.lt_of_le_of_lt hrow hsize)
  refine ⟨hdistance, ?_⟩
  rw [Layout.rowAddress, UInt32.toNat_add, hdistance]
  exact Nat.mod_eq_of_lt (Nat.lt_of_le_of_lt (Nat.add_le_add_left hrow _) hend)

/-! ## The palette -/

/-- The colour in three cells from a place on. -/
def colorAt? (m : Memory) (place : Nat) : Option Color :=
  match m.cell? place, m.cell? (place + 1), m.cell? (place + 2) with
  | some red, some green, some blue => some { red, green, blue }
  | _, _, _ => none

theorem length_colors (bytes : List UInt8) : (colors bytes).length = bytes.length / 3 := by
  match bytes with
  | [] | [_] | [_, _] => simp [colors]
  | r :: g :: b :: rest =>
    rw [colors, List.length_cons, length_colors rest]
    simp only [List.length_cons]
    omega

/-- The colours that are read lie in memory one behind the other. -/
theorem colorAt?_of_spells {m : Memory} {start : Nat} {bytes : List UInt8}
    (h : m.Spells start bytes) {i : Nat} (hi : i < (colors bytes).length) :
    colorAt? m (start + 3 * i) = some (colors bytes)[i] := by
  match bytes with
  | [] | [_] | [_, _] => exact absurd hi (Nat.not_lt_zero i)
  | r :: g :: b :: rest =>
    obtain ⟨hfront, hback⟩ := (Memory.spells_append _ _ [r, g, b] rest).1 h
    cases i with
    | zero =>
      have hred := hfront 0 (Nat.zero_lt_succ _)
      have hgreen := hfront 1 (Nat.succ_lt_succ (Nat.zero_lt_succ _))
      have hblue := hfront 2 (Nat.lt_succ_self 2)
      simp only [Nat.mul_zero, Nat.add_zero, colorAt?] at hred ⊢
      simp [hred, hgreen, hblue, colors]
    | succ i =>
      have hplace : start + 3 * (i + 1) = start + [r, g, b].length + 3 * i := by
        rw [List.length_cons, List.length_cons, List.length_singleton]
        omega
      have hrest : i < (colors rest).length := Nat.lt_of_succ_lt_succ hi
      rw [hplace, colorAt?_of_spells hback hrest]
      rfl

variable {s : Simulator} {l : Layout}

/-- A palette that was read is what memory spells at its place. -/
theorem readPalette_eq_ok_iff (palette : Array Color) :
    readPalette s l = .ok palette ↔ ∃ bytes, palettePlace l + 768 ≤ s.memory.size ∧
      bytes.length = 768 ∧ s.memory.Spells (palettePlace l) bytes ∧
      palette = (colors bytes).toArray := by
  have hblock := fun bytes => s.readBlock_eq_ok_iff l.paletteAddress 768 bytes
  rw [toNat_paletteAddress] at hblock
  show (s.readBlock l.paletteAddress 768).map _ = .ok palette ↔ _
  constructor
  · intro h
    cases hread : s.readBlock l.paletteAddress 768 with
    | error error =>
      rw [hread] at h
      cases h
    | ok bytes =>
      rw [hread] at h
      cases h
      obtain ⟨hend, hlength, hspells⟩ := (hblock bytes).1 hread
      exact ⟨bytes, hend, hlength, hspells, rfl⟩
  · intro h
    obtain ⟨bytes, hend, hlength, hspells, rfl⟩ := h
    rw [(hblock bytes).2 ⟨hend, hlength, hspells⟩]
    rfl

/-- A palette that was read has a colour for every index, and it is the one in
memory. -/
theorem lookup_readPalette {palette : Array Color} (h : readPalette s l = .ok palette)
    (index : UInt8) :
    index.toNat < palette.size ∧
      colorAt? s.memory (palettePlace l + 3 * index.toNat) = some (lookup palette index) := by
  obtain ⟨bytes, -, hlength, hspells, rfl⟩ := (readPalette_eq_ok_iff palette).1 h
  have hlt : index.toNat < (colors bytes).length := by
    rw [length_colors, hlength]
    exact index.toNat_lt
  refine ⟨by rwa [List.size_toArray], ?_⟩
  rw [colorAt?_of_spells hspells hlt, lookup]
  simp [hlt]

/-- A palette can be read exactly if all of it is in memory. -/
theorem exists_readPalette_iff (s : Simulator) (l : Layout) :
    (∃ palette, readPalette s l = .ok palette) ↔ palettePlace l + 768 ≤ s.memory.size := by
  constructor
  · intro h
    obtain ⟨palette, hpalette⟩ := h
    obtain ⟨-, hend, -⟩ := (readPalette_eq_ok_iff palette).1 hpalette
    exact hend
  · intro h
    rw [← toNat_paletteAddress] at h
    obtain ⟨bytes, hbytes⟩ := s.exists_readBlock l.paletteAddress h
    rw [Simulator.readBlock_eq_ok_iff, toNat_paletteAddress] at hbytes
    exact ⟨_, (readPalette_eq_ok_iff _).2 ⟨bytes, hbytes.1, hbytes.2.1, hbytes.2.2, rfl⟩⟩

/-! ## Rows -/

/-- One more row is composed if it can be read and the others are composed
behind it. -/
theorem composeRows_succ_eq_ok_iff (buffer : UInt32) (palette : Array Color) (left : Nat)
    (y : UInt32) (pixels out : Array Color) :
    composeRows s l buffer palette false (left + 1) y pixels = .ok out ↔
      ∃ row, s.readBlock (l.rowAddress buffer y) l.width.toNat = .ok row ∧
        composeRows s l buffer palette false left (y + 1)
          (pixels ++ (row.map (lookup palette)).toArray) = .ok out := by
  have hpush : ∀ row : List UInt8,
      row.foldl (fun pixels index => pixels.push (lookup palette index)) pixels =
        pixels ++ (row.map (lookup palette)).toArray := by
    intro row
    exact List.foldl_push_eq_append
  rw [composeRows, if_neg Bool.false_ne_true]
  cases hrow : s.readBlock (l.rowAddress buffer y) l.width.toNat with
  | error error => simp [Engine.readBlock, hrow]
  | ok row => simp [Engine.readBlock, hrow, hpush]

/-- The rows of a buffer that fits are composed exactly if each of them can be
read, and the indices in them are those of one block. -/
theorem composeRows_eq_ok_iff {buffer : UInt32} (hfits : l.fitsAt buffer = true)
    (palette : Array Color) (left : Nat) {y : UInt32} (hleft : y.toNat + left = l.height.toNat)
    (pixels out : Array Color) :
    composeRows s l buffer palette false left y pixels = .ok out ↔
      (∀ i, y.toNat ≤ i → i < l.height.toNat →
        buffer.toNat + i * l.width.toNat + l.width.toNat ≤ s.memory.size) ∧
      ∃ indices : List UInt8, indices.length = left * l.width.toNat ∧
        s.memory.Spells (buffer.toNat + y.toNat * l.width.toNat) indices ∧
        out = pixels ++ (indices.map (lookup palette)).toArray := by
  induction left generalizing y pixels with
  | zero =>
    constructor
    · intro h
      cases h
      refine ⟨fun i hi hi' => by omega, [], by simp, ?_, by simp⟩
      exact fun i hi => absurd hi (Nat.not_lt_zero i)
    · intro h
      obtain ⟨-, indices, hlength, -, rfl⟩ := h
      rw [Nat.zero_mul] at hlength
      rw [List.eq_nil_of_length_eq_zero hlength]
      simp [composeRows]
  | succ left ih =>
    have hy : y < l.height := UInt32.lt_iff_toNat_lt.2 (by omega)
    have hnext : (y + 1).toNat = y.toNat + 1 := by
      have hone : (1 : UInt32).toNat = 1 := rfl
      have hsize := l.height.toNat_lt
      rw [UInt32.toNat_add, hone]
      exact Nat.mod_eq_of_lt (by omega)
    have hread := s.readBlock_eq_ok_iff (l.rowAddress buffer y) l.width.toNat
    rw [(toNat_rowAddress hfits hy).2] at hread
    have hrest := fun pixels => @ih (y + 1) (by omega) pixels
    simp only [hnext, Nat.succ_mul, ← Nat.add_assoc] at hrest
    rw [composeRows_succ_eq_ok_iff]
    simp only [hread, hrest]
    constructor
    · intro h
      obtain ⟨row, ⟨hend, hwidth, hrow⟩, hends, indices, hlength, hindices, rfl⟩ := h
      refine ⟨fun i hi hi' => ?_, row ++ indices, ?_, ?_, ?_⟩
      · obtain rfl | hlt := Nat.eq_or_lt_of_le hi
        · exact hend
        · exact hends i hlt hi'
      · rw [List.length_append, hwidth, hlength, Nat.succ_mul, Nat.add_comm]
      · rw [Memory.spells_append, hwidth]
        exact ⟨hrow, hindices⟩
      · simp
    · intro h
      obtain ⟨hends, indices, hlength, hindices, rfl⟩ := h
      rw [← List.take_append_drop l.width.toNat indices, Memory.spells_append] at hindices
      have hwidth : (indices.take l.width.toNat).length = l.width.toNat := by
        rw [List.length_take, hlength, Nat.succ_mul]
        exact Nat.min_eq_left (Nat.le_add_left _ _)
      rw [hwidth] at hindices
      refine ⟨indices.take l.width.toNat,
        ⟨hends y.toNat (Nat.le_refl _) (UInt32.lt_iff_toNat_lt.1 hy), hwidth, hindices.1⟩,
        fun i hi hi' => hends i (Nat.le_of_succ_le hi) hi',
        indices.drop l.width.toNat, ?_, hindices.2, ?_⟩
      · rw [List.length_drop, hlength, Nat.succ_mul, Nat.add_sub_cancel]
      · have hsplit : indices.map (lookup palette) =
            (indices.take l.width.toNat).map (lookup palette) ++
              (indices.drop l.width.toNat).map (lookup palette) := by
          rw [← List.map_append, List.take_append_drop]
        apply Array.toList_inj.1
        rw [Array.toList_append, Array.toList_append, Array.toList_append, hsplit,
          List.append_assoc]

/-- All rows are composed exactly if each of them is in memory. -/
theorem exists_composeRows_iff {buffer : UInt32} (hfits : l.fitsAt buffer = true)
    (palette : Array Color) :
    (∃ pixels, composeRows s l buffer palette false l.height.toNat 0 #[] = .ok pixels) ↔
      ∀ y < l.height.toNat, buffer.toNat + y * l.width.toNat + l.width.toNat ≤ s.memory.size := by
  have hrows := fun out => composeRows_eq_ok_iff (s := s) hfits palette l.height.toNat (y := 0)
    (Nat.zero_add _) #[] out
  constructor
  · intro h y hy
    obtain ⟨pixels, hpixels⟩ := h
    exact ((hrows pixels).1 hpixels).1 y (Nat.zero_le y) hy
  · intro h
    obtain ⟨indices, hlength, hindices⟩ : ∃ indices : List UInt8,
        indices.length = l.height.toNat * l.width.toNat ∧
          s.memory.Spells buffer.toNat indices := by
      cases hheight : l.height.toNat with
      | zero => exact ⟨[], by simp, fun i hi => absurd hi (Nat.not_lt_zero i)⟩
      | succ last =>
        have hend := h last (hheight ▸ Nat.lt_succ_self last)
        rw [Nat.add_assoc, ← Nat.succ_mul] at hend
        obtain ⟨indices, hindices⟩ := s.exists_readBlock buffer hend
        exact ⟨indices, ((s.readBlock_eq_ok_iff _ _ _).1 hindices).2⟩
    refine ⟨_, (hrows _).2 ⟨fun y _ hy => h y hy, indices, hlength, ?_, rfl⟩⟩
    rwa [UInt32.toNat_zero, Nat.zero_mul, Nat.add_zero]

/-! ## Frames -/

/-- What a frame can be composed from: a layout that fits, a status byte, a
palette, and the first index or every row as the status asks. -/
structure Composable (m : Memory) (l : Layout) (buffer : Nat) (status : UInt8) : Prop where
  size_fits : l.width.toNat * l.height.toNat < UInt32.size
  end_fits : buffer + l.width.toNat * l.height.toNat < UInt32.size
  status_there : m.cell? (statusPlace l) = some status
  palette_there : palettePlace l + 768 ≤ m.size
  first_there : status &&& fillMask ≠ 0 → buffer < m.size
  rows_there : status &&& fillMask = 0 → ∀ y < l.height.toNat,
    buffer + y * l.width.toNat + l.width.toNat ≤ m.size

/-- The place of the index that colours a pixel. -/
def indexPlace (l : Layout) (buffer : Nat) (status : UInt8) (x y : UInt32) : Nat :=
  if status &&& fillMask = 0 then buffer + (y.toNat * l.width.toNat + x.toNat) else buffer

/-- The frame has the size of the layout, and each pixel the colour that the
palette in memory gives to the index in memory. -/
structure Shows (m : Memory) (l : Layout) (buffer : Nat) (status : UInt8) (f : Frame) :
    Prop where
  width_eq : f.width = l.width
  height_eq : f.height = l.height
  size_eq : f.pixels.size = l.width.toNat * l.height.toNat
  inside : ∀ x y, x < l.width → y < l.height →
    ∃ index color, m.cell? (indexPlace l buffer status x y) = some index ∧
      colorAt? m (palettePlace l + 3 * index.toNat) = some color ∧ f.pixel? x y = some color
  outside : ∀ x y, ¬ (x < l.width ∧ y < l.height) → f.pixel? x y = none

/-- A frame is composed after three looks at memory: at the status, at the
palette, and at the first index or at the rows. -/
theorem compose_eq_ok_iff (buffer : UInt32) (f : Frame) :
    compose s l buffer = .ok f ↔ l.fitsAt buffer = true ∧
      ∃ status palette, s.readByte l.statusAddress = .ok status ∧
        readPalette s l = .ok palette ∧
        ((status &&& fillMask ≠ 0 ∧ ∃ index, s.readByte buffer = .ok index ∧
            f = .filled l.width l.height (lookup palette index)) ∨
          (status &&& fillMask = 0 ∧ ∃ pixels,
            composeRows s l buffer palette false l.height.toNat 0 #[] = .ok pixels ∧
              f = { width := l.width, height := l.height, pixels })) := by
  have hread : readStatus s l = (s.readByte l.statusAddress).map Status.ofByte := rfl
  have hfirst : Engine.readByte s buffer = s.readByte buffer := rfl
  rw [compose, composeUnless, hread, hfirst]
  by_cases hfits : l.fitsAt buffer = true
  case neg => simp [hfits]
  rw [if_pos hfits]
  simp only [hfits, true_and]
  cases hstatus : s.readByte l.statusAddress with
  | error error => simp [Except.map]
  | ok status =>
    cases hpalette : readPalette s l with
    | error error => simp [Except.map]
    | ok palette =>
      by_cases hfill : status &&& fillMask = 0
      · cases hrows : composeRows s l buffer palette false l.height.toNat 0 #[] with
        | error error => simp [Except.map, Status.ofByte, hfill, hrows]
        | ok pixels => simp [Except.map, Status.ofByte, hfill, hrows, @eq_comm _ _ f]
      · cases hindex : s.readByte buffer with
        | error error => simp [Except.map, Status.ofByte, hfill]
        | ok index => simp [Except.map, Status.ofByte, hfill, @eq_comm _ _ f]

variable {buffer : UInt32} {status : UInt8} {palette : Array Color}

/-- A filled frame shows the first index. -/
theorem shows_filled (hsize : l.pixelCount < UInt32.size)
    (hpalette : readPalette s l = .ok palette) (hfill : status &&& fillMask ≠ 0) {index : UInt8}
    (hindex : s.memory.cell? buffer.toNat = some index) :
    Shows s.memory l buffer.toNat status (.filled l.width l.height (lookup palette index)) where
  width_eq := rfl
  height_eq := rfl
  size_eq := Array.size_replicate
  inside := by
    intro x y hx hy
    refine ⟨index, lookup palette index, ?_, (lookup_readPalette hpalette index).2, ?_⟩
    · rw [indexPlace, if_neg hfill, hindex]
    · have hlt := (toNat_pixelNumber hsize hx hy).2
      rw [Frame.pixel?, if_pos ⟨hx, hy⟩]
      exact (Array.getElem?_replicate ..).trans (if_pos hlt)
  outside := fun x y h => if_neg h

/-- A frame of rows shows the index for each pixel. -/
theorem shows_rows (hsize : l.pixelCount < UInt32.size)
    (hpalette : readPalette s l = .ok palette) (hfill : status &&& fillMask = 0)
    {indices : List UInt8} (hlength : indices.length = l.height.toNat * l.width.toNat)
    (hindices : s.memory.Spells buffer.toNat indices) :
    Shows s.memory l buffer.toNat status
      { width := l.width, height := l.height,
        pixels := (indices.map (lookup palette)).toArray } where
  width_eq := rfl
  height_eq := rfl
  size_eq := by simp [hlength, Nat.mul_comm]
  inside := by
    intro x y hx hy
    obtain ⟨hnumber, hlt⟩ := toNat_pixelNumber hsize hx hy
    rw [hnumber, Nat.mul_comm l.width.toNat, ← hlength] at hlt
    refine ⟨indices[y.toNat * l.width.toNat + x.toNat], _, ?_,
      (lookup_readPalette hpalette _).2, ?_⟩
    · rw [indexPlace, if_pos hfill]
      exact hindices _ hlt
    · rw [Frame.pixel?, if_pos ⟨hx, hy⟩, hnumber]
      simp [hlt]
  outside := fun x y h => if_neg h

/-- A frame shows what is in memory. -/
theorem shows_of_compose {f : Frame} (h : compose s l buffer = .ok f) :
    ∃ status, s.memory.cell? (statusPlace l) = some status ∧
      Composable s.memory l buffer.toNat status ∧ Shows s.memory l buffer.toNat status f := by
  obtain ⟨hfits, status, palette, hbyte, hpalette, hpixels⟩ := (compose_eq_ok_iff buffer f).1 h
  obtain ⟨hsize, hend⟩ := (fitsAt_iff l buffer).1 hfits
  have hthere := (exists_readPalette_iff s l).1 ⟨palette, hpalette⟩
  rw [Simulator.readByte_eq_ok_iff, toNat_statusAddress] at hbyte
  refine ⟨status, hbyte, ?_⟩
  obtain ⟨hfill, index, hindex, rfl⟩ | ⟨hfill, pixels, hrows, rfl⟩ := hpixels
  · rw [Simulator.readByte_eq_ok_iff] at hindex
    have hfirst := (s.memory.exists_cell?_iff _).1 ⟨index, hindex⟩
    exact ⟨⟨hsize, hend, hbyte, hthere, fun _ => hfirst, fun hclear => absurd hclear hfill⟩,
      shows_filled hsize hpalette hfill hindex⟩
  · have hall := (exists_composeRows_iff hfits palette).1 ⟨pixels, hrows⟩
    obtain ⟨-, indices, hlength, hindices, rfl⟩ :=
      (composeRows_eq_ok_iff hfits palette l.height.toNat (Nat.zero_add _) #[] _).1 hrows
    rw [UInt32.toNat_zero, Nat.zero_mul, Nat.add_zero] at hindices
    refine ⟨⟨hsize, hend, hbyte, hthere, fun hset => absurd hfill hset, fun _ => hall⟩, ?_⟩
    simpa using shows_rows hsize hpalette hfill hlength hindices

/-- Where everything is in memory, there is a frame. -/
theorem exists_compose (h : Composable s.memory l buffer.toNat status) :
    ∃ f, compose s l buffer = .ok f := by
  have hfits := (fitsAt_iff l buffer).2 ⟨h.size_fits, h.end_fits⟩
  obtain ⟨palette, hpalette⟩ := (exists_readPalette_iff s l).2 h.palette_there
  have hbyte : s.readByte l.statusAddress = .ok status := by
    rw [Simulator.readByte_eq_ok_iff, toNat_statusAddress]
    exact h.status_there
  by_cases hfill : status &&& fillMask = 0
  · obtain ⟨pixels, hrows⟩ := (exists_composeRows_iff hfits palette).2 (h.rows_there hfill)
    exact ⟨_, (compose_eq_ok_iff buffer _).2
      ⟨hfits, status, palette, hbyte, hpalette, .inr ⟨hfill, pixels, hrows, rfl⟩⟩⟩
  · obtain ⟨index, hindex⟩ := (s.memory.exists_cell?_iff _).2 (h.first_there hfill)
    rw [← Simulator.readByte_eq_ok_iff] at hindex
    exact ⟨_, (compose_eq_ok_iff buffer _).2
      ⟨hfits, status, palette, hbyte, hpalette, .inl ⟨hfill, index, hindex, rfl⟩⟩⟩

/-- Composition is exact: there is a frame exactly if all that it is composed
from is in memory, and then it shows what is there.  No address of a row wraps
around, and every index has a colour. -/
theorem compose_exact (s : Simulator) (l : Layout) (buffer : UInt32) :
    ((∃ f, compose s l buffer = .ok f) ↔
      ∃ status, Composable s.memory l buffer.toNat status) ∧
    (∀ f, compose s l buffer = .ok f →
      ∃ status, s.memory.cell? (statusPlace l) = some status ∧
        Shows s.memory l buffer.toNat status f) ∧
    (l.fitsAt buffer = true → ∀ y < l.height,
      (y * l.width).toNat = y.toNat * l.width.toNat ∧
        (l.rowAddress buffer y).toNat = buffer.toNat + y.toNat * l.width.toNat) ∧
    ∀ palette, readPalette s l = .ok palette → ∀ index : UInt8, index.toNat < palette.size := by
  refine ⟨⟨fun h => ?_, fun h => ?_⟩, fun f hf => ?_, fun hfits y hy => toNat_rowAddress hfits hy,
    fun palette hpalette index => (lookup_readPalette hpalette index).1⟩
  · obtain ⟨f, hf⟩ := h
    obtain ⟨status, -, hcan, -⟩ := shows_of_compose hf
    exact ⟨status, hcan⟩
  · obtain ⟨status, hcan⟩ := h
    exact exists_compose hcan
  · obtain ⟨status, hstatus, -, hshows⟩ := shows_of_compose hf
    exact ⟨status, hstatus, hshows⟩

/-- A screen of two rows whose palette lies at address zero, since its offset
wraps around. -/
def wrappedLayout : Layout := { base := 0xFFFE0000, width := 2, height := 2 }

theorem wrapped_layout_composes :
    ∃ f, compose (Simulator.blank 0x500) wrappedLayout 0x4FC = .ok f ∧
      Shows (.blank 0x500) wrappedLayout 0x4FC 0 f ∧
      (wrappedLayout.rowAddress 0x4FC 1).toNat = 0x4FE ∧
      ∃ palette, readPalette (Simulator.blank 0x500) wrappedLayout = .ok palette ∧
        255 < palette.size := by
  obtain ⟨hiff, hshows, haddress, hindex⟩ := compose_exact (.blank 0x500) wrappedLayout 0x4FC
  have hblack : (Memory.blank 0x500).cell? (statusPlace wrappedLayout) = some 0 :=
    (Memory.cell?_blank _ _).trans (if_pos (by decide))
  have hrows : ∀ y < 2, 0x4FC + y * 2 + 2 ≤ 0x500 := by decide
  obtain ⟨f, hf⟩ := hiff.2
    ⟨0, by decide, by decide, hblack, by decide, fun h => absurd rfl h, fun _ => hrows⟩
  obtain ⟨status, hstatus, hshown⟩ := hshows f hf
  obtain rfl : 0 = status := Option.some.inj (hblack.symm.trans hstatus)
  obtain ⟨palette, hpalette⟩ :=
    (exists_readPalette_iff (.blank 0x500) wrappedLayout).2 (by decide)
  exact ⟨f, hf, hshown, (haddress (by decide) 1 (by decide)).2, palette, hpalette,
    hindex palette hpalette 255⟩

end Monitor68.Screen
