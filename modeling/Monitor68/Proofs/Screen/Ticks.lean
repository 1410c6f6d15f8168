import Mathlib.Data.List.Induction
import Monitor68.Screen.Worker
import Monitor68.Target.Simulator

/-!
# Ticks one after another

A worker ticks again and again, and between two ticks the engine may have
become any other one.  So a run of a worker is told by the list of the
engines that its ticks found.

A tick has at most one frame to show, and everything it does follows from
that frame (`tick_eq`).  What a worker remembers is whether its last tick
found the engine without power (`ticks_concat`), which is why the white
frame is published once for each time that the power fails.
-/

namespace Monitor68.Screen

variable {ε : Type} [Engine ε]

/-! ## One tick -/

/-- A status byte that says that a frame is ready. -/
def SaysReady (e : ε) (l : Layout) : Prop :=
  ∃ byte, Engine.readByte e l.statusAddress = .ok byte ∧ byte &&& ackMask ≠ 0

theorem mayTake_iff (e : ε) (l : Layout) :
    mayTake e l = true ↔ (l.frameSwap = true → SaysReady e l) := by
  unfold mayTake readStatus SaysReady
  cases l.frameSwap with
  | false => simp
  | true =>
    cases hbyte : Engine.readByte e l.statusAddress with
    | error error => simp [Except.map]
    | ok byte => simp [Except.map, Status.ofByte]

/-- The frame that a tick has to show, which may have been cancelled. -/
def Worker.frame? (w : Worker) (e : ε) (cancelled : Bool) : Option Frame :=
  if Engine.powered e then
    if mayTake e w.layout then (composeUnless cancelled e w.layout w.layout.base).toOption
    else none
  else if w.showingOff then none
  else some (w.layout.plain offColor)

theorem frame?_of_powered {w : Worker} {e : ε} (h : Engine.powered e = true) (frame : Frame) :
    w.frame? e false = some frame ↔
      mayTake e w.layout = true ∧ compose e w.layout w.layout.base = .ok frame := by
  rw [Worker.frame?, if_pos h, compose]
  cases mayTake e w.layout with
  | false => simp
  | true => cases composeUnless false e w.layout w.layout.base <;> simp [Except.toOption]

theorem frame?_of_unpowered {w : Worker} {e : ε} (h : Engine.powered e = false)
    (frame : Frame) :
    w.frame? e false = some frame ↔
      w.showingOff = false ∧ frame = w.layout.plain offColor := by
  rw [Worker.frame?, h]
  cases w.showingOff <;> simp [eq_comm]

/-- What a tick leaves, by the frame that it has to show. -/
def Worker.leave (w : Worker) (e : ε) (m : Mailbox) : Option Frame → Tick ε
  | none =>
    { published := none, worker := { w with showingOff := !Engine.powered e }, engine := e
      mailbox := m }
  | some frame =>
    { published := some (m.publish frame).1
      worker := { w with showingOff := !Engine.powered e }
      engine :=
        if Engine.powered e && w.layout.frameSwap then
          Engine.raiseInterrupt e w.layout.interruptLine
        else e
      mailbox := (m.publish frame).2 }

theorem tick_eq (w : Worker) (e : ε) (m : Mailbox) (cancelled : Bool) :
    w.tick e m cancelled = w.leave e m (w.frame? e cancelled) := by
  obtain ⟨l, showingOff⟩ := w
  simp only [Worker.tick, Worker.frame?]
  cases hpower : Engine.powered e with
  | true =>
    cases htake : mayTake e l with
    | false => simp [Worker.leave, hpower]
    | true =>
      cases composeUnless cancelled e l l.base with
      | error error => simp [Worker.leave, hpower, Except.toOption]
      | ok frame => simp [Worker.leave, hpower, Except.toOption]
  | false => cases showingOff <;> simp [Worker.leave, hpower]

section Leave

variable (w : Worker) (e : ε) (m : Mailbox) (frame : Option Frame)

@[simp] theorem worker_leave :
    (w.leave e m frame).worker = { w with showingOff := !Engine.powered e } := by
  cases frame <;> rfl

theorem isSome_published_leave : (w.leave e m frame).published.isSome = frame.isSome := by
  cases frame <;> rfl

theorem latest_leave (h : frame.isSome = true) :
    frame = some (w.leave e m frame).mailbox.latest := by
  cases frame with
  | none => cases h
  | some frame => rfl

theorem engine_leave :
    (w.leave e m frame).engine =
      if Engine.powered e ∧ w.layout.frameSwap ∧ frame.isSome then
        Engine.raiseInterrupt e w.layout.interruptLine
      else e := by
  cases frame <;> simp [Worker.leave]

end Leave

/-! ## Runs -/

/-- Let a worker tick for every engine of a list. -/
def Worker.ticks (w : Worker) (m : Mailbox) : List ε → List (Tick ε)
  | [] => []
  | e :: rest =>
    let t := w.tick e m false
    t :: t.worker.ticks t.mailbox rest

/-- The mailbox behind some ticks. -/
def mailboxAfter (m : Mailbox) (ticks : List (Tick ε)) : Mailbox :=
  (ticks.getLast?.map Tick.mailbox).getD m

/-- What a worker remembers behind ticks that found some engines. -/
def Worker.after (w : Worker) (found : List ε) : Worker :=
  { w with showingOff := (found.getLast?.map fun e => !Engine.powered e).getD w.showingOff }

theorem ticks_append (w : Worker) (m : Mailbox) (found more : List ε) :
    w.ticks m (found ++ more) =
      w.ticks m found ++ (w.after found).ticks (mailboxAfter m (w.ticks m found)) more := by
  induction found generalizing w m with
  | nil => rfl
  | cons first rest ih =>
    have hworker : (w.tick first m false).worker.after rest = w.after (first :: rest) := by
      rw [tick_eq, worker_leave]
      cases rest with
      | nil => rfl
      | cons => simp [Worker.after, List.getLast?_cons]
    have hmailbox (ticks : List (Tick ε)) :
        mailboxAfter (w.tick first m false).mailbox ticks =
          mailboxAfter m (w.tick first m false :: ticks) := by
      cases ticks with
      | nil => rfl
      | cons => simp [mailboxAfter, List.getLast?_cons]
    simp only [List.cons_append, Worker.ticks, ih, hworker, hmailbox]

/-- The generation counts the ticks that published. -/
theorem generation_mailboxAfter (w : Worker) (m : Mailbox) (found : List ε) :
    (mailboxAfter m (w.ticks m found)).generation =
      m.generation + (w.ticks m found).countP fun t => t.published.isSome := by
  induction found using List.reverseRecOn with
  | nil => rfl
  | append_singleton found e ih =>
    rw [ticks_append, List.countP_append, ← Nat.add_assoc, ← ih, Worker.ticks, tick_eq]
    cases (w.after found).frame? e false <;>
      simp [mailboxAfter, Worker.ticks, Worker.leave, Mailbox.publish]

/-- A worker that was not told otherwise shows the white frame if its last tick
found the engine without power. -/
theorem showingOff_after (l : Layout) (found : List ε) :
    (Worker.after { layout := l } found).showingOff = false ↔
      ∀ last ∈ found.getLast?, Engine.powered last = true := by
  cases h : found.getLast? <;> simp [Worker.after, h]

/-- The white frame comes again behind a tick that found power, even if that
tick had no frame. -/
example :
    let off := Simulator.blank 0
    let on := { off with powered := true }
    (Worker.ticks { layout := {} } { latest := .filled 0 0 .black } [off, off, on, off]).map
      (fun t => t.published) = [some 1, none, none, some 2] := by
  rfl

end Monitor68.Screen
