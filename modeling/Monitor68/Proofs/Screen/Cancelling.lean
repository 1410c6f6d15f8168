import Monitor68.Proofs.Screen.Composition
import Monitor68.Proofs.Screen.Ticks

/-!
# Ticks that are cancelled

A worker looks whether it is cancelled before each row of a frame and at no
other time.  A frame without rows, one that is filled with one colour, and the
white frame for an engine without power are published all the same.

`composeUnless_cancelled_iff` says which frames a cancelled composition still
yields.  From it follows when a cancelled tick acts, and that it then does all
that it would have done otherwise (`cancelled_tick_acts_iff`).
-/

namespace Monitor68.Screen

variable {ε : Type} [Engine ε]

/-- What the listener of a worker is called with in a tick: behind a
publication, the frame that the mailbox holds. -/
def Tick.heard (t : Tick ε) : List Frame :=
  if t.published.isSome then [t.mailbox.latest] else []

/-- A status byte that asks for a fill. -/
def AsksForFill (e : ε) (l : Layout) : Prop :=
  ∃ byte, Engine.readByte e l.statusAddress = .ok byte ∧ byte &&& fillMask ≠ 0

/-! ## Frames without rows -/

section Compose

variable (e : ε) (l : Layout)

theorem readStatus_eq_ok_iff (status : Status) :
    readStatus e l = .ok status ↔
      ∃ byte, Engine.readByte e l.statusAddress = .ok byte ∧ status = .ofByte byte := by
  unfold readStatus
  cases Engine.readByte e l.statusAddress with
  | error error => simp [Except.map]
  | ok byte => simp [Except.map, eq_comm]

theorem asksForFill_iff {status : Status} (h : readStatus e l = .ok status) :
    AsksForFill e l ↔ status.fill = true := by
  obtain ⟨byte, hbyte, rfl⟩ := (readStatus_eq_ok_iff e l status).1 h
  unfold AsksForFill
  rw [hbyte]
  simp [Status.ofByte]

/-- The first row is where a cancellation is noticed. -/
theorem composeRows_cancelled (buffer : UInt32) (palette : Array Color) {left : Nat}
    (h : left ≠ 0) (y : UInt32) (pixels : Array Color) :
    composeRows e l buffer palette true left y pixels = .error .cancelled := by
  cases left with
  | zero => exact absurd rfl h
  | succ left => rw [composeRows, if_pos rfl]

/-- A cancelled composition yields the frame that it would have yielded
otherwise, if this has no rows or is filled, and no other frame. -/
theorem composeUnless_cancelled_iff (buffer : UInt32) (frame : Frame) :
    composeUnless true e l buffer = .ok frame ↔
      compose e l buffer = .ok frame ∧ (l.height = 0 ∨ AsksForFill e l) := by
  rw [compose, composeUnless, composeUnless]
  by_cases hfits : l.fitsAt buffer = true
  case neg => simp [hfits]
  rw [if_pos hfits, if_pos hfits]
  cases hstatus : readStatus e l with
  | error error => simp
  | ok status =>
    rw [asksForFill_iff e l hstatus]
    cases readPalette e l with
    | error error => simp
    | ok palette =>
      by_cases hfill : status.fill = true
      · simp [hfill]
      · by_cases hheight : l.height = 0
        · have hrows : l.height.toNat = 0 := congrArg UInt32.toNat hheight
          simp [hfill, hheight, composeRows]
        · have hrows : l.height.toNat ≠ 0 := fun h => hheight (UInt32.toNat_inj.1 h)
          simp [hfill, hheight, composeRows_cancelled e l buffer palette hrows, Except.map]

end Compose

/-! ## The tick -/

/-- A cancelled tick has the frame to show that it would have otherwise, unless
rows would have to be read for it. -/
theorem frame?_cancelled_iff (w : Worker) (e : ε) (frame : Frame) :
    w.frame? e true = some frame ↔
      w.frame? e false = some frame ∧
        (Engine.powered e = true → w.layout.height = 0 ∨ AsksForFill e w.layout) := by
  have hcompose := composeUnless_cancelled_iff e w.layout w.layout.base frame
  cases hpower : Engine.powered e with
  | false => simp [Worker.frame?, hpower]
  | true =>
    simp only [frame?_of_powered hpower, and_assoc, forall_const, ← hcompose]
    rw [Worker.frame?, if_pos hpower]
    cases mayTake e w.layout with
    | false => simp
    | true => cases composeUnless true e w.layout w.layout.base <;> simp [Except.toOption]

/-- When a cancelled tick acts, and what it does then.  On an engine without
power it publishes the white frame if this is not being shown.  On an engine
with power it publishes the composed frame if there is one that may be taken
and that has no rows or is filled.  In these cases it does all that the tick
would have done otherwise: it publishes one frame, calls the listener with it
and raises the interrupt that belongs to a frame.  In all others it does
nothing but note whether the engine has power. -/
theorem cancelled_tick_acts_iff (w : Worker) (e : ε) (m : Mailbox) :
    let l := w.layout
    let t := w.tick e m true
    (t.published.isSome ↔
      Engine.powered e = false ∧ w.showingOff = false ∨
      Engine.powered e = true ∧ (l.frameSwap = true → SaysReady e l) ∧
        (∃ frame, compose e l l.base = .ok frame) ∧ (l.height = 0 ∨ AsksForFill e l)) ∧
    (t.published.isSome →
      t = w.tick e m false ∧ t.published = some (m.generation + 1) ∧
        t.mailbox.generation = m.generation + 1 ∧ t.heard = [t.mailbox.latest] ∧
        t.engine =
          if Engine.powered e ∧ l.frameSwap then Engine.raiseInterrupt e l.interruptLine
          else e) ∧
    (t.published = none → t.mailbox = m ∧ t.heard = [] ∧ t.engine = e) ∧
    t.worker = { w with showingOff := !Engine.powered e } := by
  intro l t
  have ht : t = w.leave e m (w.frame? e true) := tick_eq w e m true
  have hpublished : t.published.isSome = (w.frame? e true).isSome := by
    rw [ht, isSome_published_leave]
  refine ⟨?_, fun hsome => ?_, fun hnone => ?_, by rw [ht, worker_leave]⟩
  · rw [hpublished, Option.isSome_iff_exists]
    simp only [frame?_cancelled_iff]
    cases hpower : Engine.powered e with
    | false => simp [frame?_of_unpowered hpower]
    | true =>
      simp only [frame?_of_powered hpower, mayTake_iff]
      constructor
      · rintro ⟨frame, ⟨hready, hframe⟩, hrowless⟩
        exact .inr ⟨trivial, hready, ⟨frame, hframe⟩, hrowless trivial⟩
      · rintro (⟨hoff, -⟩ | ⟨-, hready, ⟨frame, hframe⟩, hrowless⟩)
        · cases hoff
        · exact ⟨frame, ⟨hready, hframe⟩, fun _ => hrowless⟩
  · obtain ⟨frame, hframe⟩ := Option.isSome_iff_exists.1 (hpublished ▸ hsome)
    have hsame : t = w.tick e m false := by
      rw [ht, tick_eq, hframe, ((frame?_cancelled_iff w e frame).1 hframe).1]
    rw [hframe] at ht
    refine ⟨hsame, by rw [ht]; rfl, by rw [ht]; rfl, by rw [ht]; rfl, ?_⟩
    rw [ht, engine_leave]
    simp [l]
  · rw [hnone] at hpublished
    have hframe : w.frame? e true = none := by simpa using hpublished.symm
    rw [hframe] at ht
    rw [ht]
    exact ⟨rfl, rfl, rfl⟩

/-- A screen in frame-swap mode, on interrupt line 3. -/
def swapping : Layout :=
  { base := 0, width := 2, height := 2, frameSwap := true, interruptLine := 3 }

/-- A target whose status byte says that a frame is ready and asks for a fill. -/
def filling : Simulator :=
  { memory := (Memory.blank 0x20401).setCell 0x20400 0xC0, powered := true }

/-- A mailbox with one black pixel in it. -/
def dotted : Mailbox := { latest := .filled 1 1 .black }

theorem cell?_filling : filling.memory.cell? 0x20400 = some 0xC0 := by
  rw [filling, Memory.cell?_setCell _ (by decide), if_pos rfl]

theorem composable_filling : Composable filling.memory swapping 0 0xC0 where
  size_fits := by decide
  end_fits := by decide
  status_there := by
    have hplace : statusPlace swapping = 0x20400 := by decide
    rw [hplace, cell?_filling]
  palette_there := by
    have hplace : palettePlace swapping = 0x20000 := by decide
    have hsize : filling.memory.size = 0x20401 := rfl
    omega
  first_there := fun _ => Nat.zero_lt_succ 0x20400
  rows_there := fun h => absurd h (by decide)

/-- A cancelled tick takes the filled frame and raises the interrupt. -/
theorem filled_frame_is_published :
    (Worker.tick { layout := swapping } filling dotted true).published = some 1 ∧
      (Worker.tick { layout := swapping } filling dotted true).engine.interrupts = [3] := by
  obtain ⟨hacts, heffect, -, -⟩ := cancelled_tick_acts_iff { layout := swapping } filling dotted
  have hstatus : filling.readByte 0x20400 = .ok 0xC0 :=
    (Simulator.readByte_eq_ok_iff _ _ _).2 cell?_filling
  have hready : SaysReady filling swapping := ⟨0xC0, hstatus, by decide⟩
  have hfill : AsksForFill filling swapping := ⟨0xC0, hstatus, by decide⟩
  have hframe : ∃ frame, compose filling swapping 0 = .ok frame :=
    exists_compose composable_filling
  obtain ⟨-, hpublished, -, -, hengine⟩ :=
    heffect (hacts.2 (.inr ⟨rfl, fun _ => hready, hframe, .inr hfill⟩))
  rw [hpublished, hengine]
  exact ⟨rfl, rfl⟩

/-- A cancelled tick on an engine without power publishes the white frame. -/
theorem cancelled_tick_is_seen :
    ¬ ∀ (w : Worker) (s : Simulator) (m : Mailbox),
      (w.tick s m true).published = none ∧ (w.tick s m true).mailbox = m ∧
        (w.tick s m true).heard = [] ∧ (w.tick s m true).engine = s := by
  intro h
  have hpublished := (h { layout := swapping } (Simulator.blank 0) dotted).1
  cases hpublished

end Monitor68.Screen
