import Monitor68.Proofs.Screen.Composition

/-!
# Layouts that are refused

A layout fits if each pixel of its frame buffer has an address of 32 bits.
What is looked at instead is whether the address behind the last pixel has
32 bits, so a frame buffer that ends with the address space is refused as
well.  `layout_refused_iff` says that this is the only difference, and that
to validate a layout and to compose a frame at its base refuse the same
layouts.
-/

namespace Monitor68.Screen

/-- The place of a pixel in the frame buffer of a layout. -/
def pixelPlace (l : Layout) (x y : Nat) : Nat := l.base.toNat + (y * l.width.toNat + x)

/-- Whether every pixel of a layout has an address. -/
def Addressable (l : Layout) : Prop :=
  ∀ y < l.height.toNat, ∀ x < l.width.toNat, pixelPlace l x y < UInt32.size

/-- Every pixel has an address exactly if the last one does. -/
theorem addressable_iff (l : Layout) :
    Addressable l ↔ l.base.toNat + l.pixelCount ≤ UInt32.size := by
  have hbase : l.base.toNat < UInt32.size := l.base.toNat_lt
  constructor
  · intro h
    by_cases hempty : l.pixelCount = 0
    · omega
    · obtain ⟨hwidth, hheight⟩ := Nat.mul_ne_zero_iff.1 hempty
      -- the last pixel of the last row
      have hlast := h (l.height.toNat - 1) (by omega) (l.width.toNat - 1) (by omega)
      have hrows : (l.height.toNat - 1) * l.width.toNat + l.width.toNat = l.pixelCount := by
        rw [← Nat.succ_mul, Nat.succ_eq_add_one, Nat.sub_add_cancel (by omega), Layout.pixelCount,
          Nat.mul_comm]
      rw [pixelPlace] at hlast
      omega
  · intro h y hy x hx
    have hrows : (y + 1) * l.width.toNat ≤ l.height.toNat * l.width.toNat :=
      Nat.mul_le_mul_right _ hy
    rw [Nat.succ_mul, Nat.mul_comm l.height.toNat] at hrows
    rw [Layout.pixelCount] at h
    rw [pixelPlace]
    omega

theorem fitsAt_base_iff (l : Layout) :
    l.fitsAt l.base = true ↔ l.base.toNat + l.pixelCount < UInt32.size := by
  rw [fitsAt_iff]
  omega

theorem validate_eq_ok_iff (l : Layout) : l.validate = .ok () ↔ l.fitsAt l.base = true := by
  unfold Layout.validate
  split <;> simp [*]

section Compose

variable {ε : Type} [Engine ε] (e : ε) (l : Layout)

theorem composeRows_ne_tooLarge (buffer : UInt32) (palette : Array Color) (cancelled : Bool)
    (left : Nat) (y : UInt32) (pixels : Array Color) (base width height : UInt32) :
    composeRows e l buffer palette cancelled left y pixels ≠
      .error (.tooLarge base width height) := by
  intro h
  induction left generalizing y pixels with
  | zero => cases h
  | succ left ih =>
    unfold composeRows at h
    split at h
    · cases h
    · split at h
      · cases h
      · exact ih _ _ h

theorem composeUnless_ne_tooLarge {buffer : UInt32} (hfits : l.fitsAt buffer = true)
    (cancelled : Bool) (base width height : UInt32) :
    composeUnless cancelled e l buffer ≠ .error (.tooLarge base width height) := by
  intro h
  unfold composeUnless at h
  rw [if_pos hfits] at h
  split at h
  · cases h
  split at h
  · cases h
  split at h
  · split at h <;> cases h
  · generalize hrows : composeRows e l buffer _ cancelled l.height.toNat 0 #[] = rows at h
    cases rows with
    | ok pixels => cases h
    | error error =>
      cases h
      exact composeRows_ne_tooLarge e l _ _ _ _ _ _ _ _ _ hrows

/-- A frame is too large exactly if its buffer does not fit, whatever the engine
answers and whether or not the composition is cancelled. -/
theorem composeUnless_eq_tooLarge_iff (cancelled : Bool) (buffer base width height : UInt32) :
    composeUnless cancelled e l buffer = .error (.tooLarge base width height) ↔
      l.fitsAt buffer = false ∧ base = buffer ∧ width = l.width ∧ height = l.height := by
  by_cases hfits : l.fitsAt buffer = true
  · have hother := composeUnless_ne_tooLarge e l hfits cancelled base width height
    exact ⟨fun h => absurd h hother, fun h => absurd h.1 (by simp [hfits])⟩
  · rw [composeUnless, if_neg hfits]
    simp [hfits, eq_comm]

end Compose

/-- A layout is accepted exactly if the address behind its frame buffer has 32
bits.  This is the same as every pixel having an address unless the buffer ends
with the address space.  A frame at the base of a layout is too large, with any
engine, exactly if the layout is refused. -/
theorem layout_refused_iff {ε : Type} [Engine ε] (e : ε) (l : Layout) :
    (l.validate = .ok () ↔ l.base.toNat + l.pixelCount < UInt32.size) ∧
    (Addressable l ↔ l.base.toNat + l.pixelCount ≤ UInt32.size) ∧
    ((l.validate = .ok () ↔ Addressable l) ↔ l.base.toNat + l.pixelCount ≠ UInt32.size) ∧
    (compose e l l.base = .error (.tooLarge l.base l.width l.height) ↔ l.validate ≠ .ok ()) ∧
    ∀ base width height, compose e l l.base = .error (.tooLarge base width height) →
      base = l.base ∧ width = l.width ∧ height = l.height := by
  have hvalid : l.validate = .ok () ↔ l.base.toNat + l.pixelCount < UInt32.size :=
    (validate_eq_ok_iff l).trans (fitsAt_base_iff l)
  refine ⟨hvalid, addressable_iff l, ?_, ?_, fun base width height h => ?_⟩
  · rw [hvalid, addressable_iff]
    omega
  · rw [compose, composeUnless_eq_tooLarge_iff, ne_eq, validate_eq_ok_iff]
    simp
  · exact ((composeUnless_eq_tooLarge_iff e l false l.base base width height).1 h).2

/-- A screen of 256 pixels at the last 256 addresses. -/
def topmost : Layout := { base := 0xFFFFFF00, width := 16, height := 16 }

theorem validate_topmost : topmost.validate ≠ .ok () := by
  rw [ne_eq, validate_eq_ok_iff]
  decide

theorem topmost_is_too_large :
    compose (Simulator.blank 16) topmost topmost.base = .error (.tooLarge 0xFFFFFF00 16 16) ∧
      topmost.validate ≠ .ok () ∧ (0xFFFFFF00 : UInt32) = topmost.base := by
  obtain ⟨-, -, -, htooLarge, hnames⟩ := layout_refused_iff (Simulator.blank 16) topmost
  have hanswer := htooLarge.2 validate_topmost
  exact ⟨hanswer, validate_topmost, (hnames _ _ _ hanswer).1⟩

/-- A layout can be refused although every pixel has an address. -/
theorem topmost_is_refused : ¬ ∀ l : Layout, l.validate = .ok () ↔ Addressable l := by
  intro h
  have haddressable : Addressable topmost := (addressable_iff topmost).2 (by decide)
  exact validate_topmost ((h topmost).2 haddressable)

end Monitor68.Screen
