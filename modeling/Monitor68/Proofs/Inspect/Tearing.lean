import Monitor68.Proofs.Inspect.Strings
import Monitor68.Proofs.Threads.Script
import Monitor68.Target.Simulator

/-!
# Decoding while memory is written

A value is decoded by one thread while another one writes blocks.  A number
or a character is one read, so it is the value at one moment.  A string is
read byte by byte, and a write may come between two of the reads: then it
is put together from bytes of several moments, in their order, and need
not be what memory held at any of them.

`decode_among_writes` says what a decoded value is, and when it is that of
one moment.
-/

namespace Monitor68

open Script

/-- Among others that move by `R`, the script can give an answer.  The list has
the states from the call to the answer. -/
inductive Script.Passes {σ α : Type} (R : σ → σ → Prop) : Script σ α → List σ → α → Prop where
  | done {a : α} {s : σ} : Passes R (.done a) [s] a
  | moved {c : Script σ α} {s t : σ} {ss : List σ} {a : α} (hmove : R s t)
      (rest : Passes R c (t :: ss) a) : Passes R c (s :: t :: ss) a
  | acted {ready : σ → Bool} {effect : σ → σ} {next : σ → Script σ α} {s : σ} {ss : List σ}
      {a : α} (hready : ready s = true) (rest : Passes R (next s) (effect s :: ss) a) :
      Passes R (.act ready effect next) (s :: effect s :: ss) a

theorem Script.Passes.length_pos {σ α : Type} {R : σ → σ → Prop} {c : Script σ α} {ss : List σ}
    {a : α} (h : Passes R c ss a) : 0 < ss.length := by
  cases h <;> exact Nat.zero_lt_succ _

/-- Another thread writes a block. -/
def Simulator.Writes (s t : Simulator) : Prop :=
  ∃ address data, t = (s.writeBlock address data).1

namespace Decode

/-! ## The script -/

/-- Go on with a string after a byte was read, or was found missing. -/
def afterRead (address : UInt32) (seen : List Char)
    (rest : List Char → Script Simulator (Except DecodeError String)) :
    Option UInt8 → Script Simulator (Except DecodeError String)
  | none => pure (.error (.invalidAddress address))
  | some b =>
    if b = 0 then pure (.ok (String.ofList seen.reverse))
    else if isAscii b then rest (Char.ofNat b.toNat :: seen)
    else pure (.error (.notAscii b))

/-- Read at most `left` more bytes of a string, one in each step. -/
def scanScript (address : UInt32) :
    (left offset : Nat) → (seen : List Char) → Script Simulator (Except DecodeError String)
  | 0, _, _ => pure (.error .unterminated)
  | left + 1, offset, seen =>
    look (byteAt · address offset) >>=
      afterRead address seen (scanScript address left (offset + 1))

/-- Decode a value with one step for each read. -/
def script (address : UInt32) : Encoding → Script Simulator (Except DecodeError String)
  | .number size form => look (number · address size form)
  | .character => look (character · address)
  | .string => scanScript address longestString 0 []

/-! ## Calls -/

section Calls

variable {R : Simulator → Simulator → Prop} {address : UInt32} {s : Simulator}
  {states : List Simulator} {answer : Except DecodeError String} {left offset : Nat}
  {seen : List Char} {b : UInt8}

/-- A read is a step that leaves the state alone. -/
theorem passes_read {next : Option UInt8 → Script Simulator (Except DecodeError String)}
    (h : Passes R (next (byteAt s address offset)) (s :: states) answer) :
    Passes R (look (byteAt · address offset) >>= next) (s :: s :: states) answer :=
  .acted rfl h

/-- A character of the string is read, and the script goes on in that state. -/
theorem passes_character (hb : byteAt s address offset = some b) (hne : b ≠ 0)
    (hascii : isAscii b = true)
    (rest : Passes R (scanScript address left (offset + 1) (Char.ofNat b.toNat :: seen))
      (s :: states) answer) :
    Passes R (scanScript address (left + 1) offset seen) (s :: s :: states) answer := by
  refine passes_read ?_
  rwa [hb, afterRead, if_neg hne, if_pos hascii]

/-- The zero byte behind the string is read. -/
theorem passes_end (hb : byteAt s address offset = some 0) :
    Passes R (scanScript address (left + 1) offset seen) [s, s]
      (.ok (String.ofList seen.reverse)) := by
  refine passes_read ?_
  rw [hb]
  exact .done

/-- A string that nobody writes to is scanned as in one moment. -/
theorem exists_passes_scanScript (R : Simulator → Simulator → Prop) (s : Simulator)
    (address : UInt32) (left offset : Nat) (seen : List Char) :
    ∃ n, Passes R (scanScript address left offset seen) (s :: List.replicate n s)
      (scanString (byteAt s address) address left offset seen) := by
  induction left generalizing offset seen with
  | zero => exact ⟨0, .done⟩
  | succ left ih =>
    obtain ⟨n, hrest⟩ := ih (offset + 1)
      (Char.ofNat ((byteAt s address offset).getD 0).toNat :: seen)
    rw [scanString]
    cases hb : byteAt s address offset with
    | none => exact ⟨1, passes_read (by rw [hb]; exact .done)⟩
    | some b =>
      rw [hb] at hrest
      dsimp only
      split
      · rename_i hzero
        exact ⟨1, passes_end (hzero ▸ hb)⟩
      split
      · rename_i hne hascii
        exact ⟨n + 1, passes_character hb hne hascii hrest⟩
      · rename_i hne hascii
        refine ⟨1, passes_read ?_⟩
        rw [hb, afterRead, if_neg hne, if_neg hascii]
        exact .done

end Calls

/-- The script of a value that nobody writes to answers the value. -/
theorem exists_passes_script (R : Simulator → Simulator → Prop) (s : Simulator)
    (address : UInt32) (encoding : Encoding) :
    ∃ n, Passes R (script address encoding) (s :: List.replicate n s)
      (value s address encoding) := by
  cases encoding with
  | number size form => exact ⟨1, .acted rfl .done⟩
  | character => exact ⟨1, .acted rfl .done⟩
  | string => exact exists_passes_scanScript R s address longestString 0 []

/-! ## Among writes -/

section Moments

variable {R : Simulator → Simulator → Prop} {address : UInt32} {states : List Simulator}
  {answer : Except DecodeError String}

/-- A thread that has its answer gives it. -/
theorem eq_of_passes_done {a : Except DecodeError String} (h : Passes R (.done a) states answer) :
    answer = a := by
  generalize hc : Script.done a = c at h
  induction h with
  | done => exact (Script.done.inj hc).symm
  | moved _ _ ih => exact ih hc
  | acted => cases hc

/-- A read sees one of the states, and the rest of the script begins there. -/
theorem passes_look_bind {α : Type} {f : Simulator → α}
    {k : α → Script Simulator (Except DecodeError String)}
    (h : Passes R (look f >>= k) states answer) :
    ∃ before s later, states = before ++ s :: later ∧ Passes R (k (f s)) later answer := by
  generalize hc : look f >>= k = c at h
  induction h with
  | done => cases hc
  | @moved _ s t ss _ _ _ ih =>
    obtain ⟨before, u, later, hstates, hrest⟩ := ih hc
    exact ⟨s :: before, u, later, congrArg (s :: ·) hstates, hrest⟩
  | @acted _ _ _ s ss _ _ rest =>
    cases hc
    exact ⟨[], s, s :: ss, rfl, rest⟩

/-- A value of one read is the value in one of the states. -/
theorem mem_of_passes_look {f : Simulator → Except DecodeError String}
    (h : Passes R (look f) states answer) : ∃ s ∈ states, answer = f s := by
  have hbind : Passes R (look f >>= pure) states answer := h
  obtain ⟨before, s, later, rfl, hrest⟩ := passes_look_bind hbind
  exact ⟨s, by simp, eq_of_passes_done hrest⟩

/-- A choice of states, one for each offset, that goes forward in the list. -/
structure Forward (states : List Simulator) (moment : Nat → Nat) : Prop where
  lt_length : ∀ i, moment i < states.length
  mono : ∀ i j, i ≤ j → moment i ≤ moment j

/-- The byte at each offset in the state chosen for it. -/
def byteOver (states : List Simulator) (moment : Nat → Nat) (address : UInt32) (i : Nat) :
    Option UInt8 :=
  states[moment i]?.bind (byteAt · address i)

theorem forward_constant {states : List Simulator} {n : Nat} (h : n < states.length) :
    Forward states fun _ => n where
  lt_length _ := h
  mono _ _ _ := Nat.le_refl n

/-- One state up to an offset, and states behind it from there on. -/
theorem Forward.prepend {before later : List Simulator} {moment : Nat → Nat}
    (h : Forward later moment) (s : Simulator) (offset : Nat) :
    Forward (before ++ s :: later) fun i =>
      if i ≤ offset then before.length else before.length + 1 + moment i where
  lt_length i := by
    have hlt := h.lt_length i
    rw [List.length_append, List.length_cons]
    split <;> omega
  mono i j hij := by
    have hle := h.mono i j hij
    split <;> split <;> omega

/-- The bytes of a string are read one after the other, each in one of the
states. -/
theorem exists_moments {left offset : Nat} {seen : List Char}
    (h : Passes R (scanScript address left offset seen) states answer) :
    ∃ moment, Forward states moment ∧
      answer = scanString (byteOver states moment address) address left offset seen := by
  induction left generalizing offset seen states with
  | zero => exact ⟨_, forward_constant h.length_pos, eq_of_passes_done h⟩
  | succ left ih =>
    obtain ⟨before, s, later, rfl, hrest⟩ := passes_look_bind h
    have hstate : (before ++ s :: later)[before.length]? = some s := by simp
    -- what is read if this is the last read of the script
    have hlast : byteOver (before ++ s :: later) (fun _ => before.length) address offset =
        byteAt s address offset := by
      rw [byteOver, hstate, Option.bind_some]
    have hforward : Forward (before ++ s :: later) fun _ => before.length :=
      forward_constant (by simp)
    cases hb : byteAt s address offset with
    | none =>
      rw [hb] at hrest hlast
      exact ⟨_, hforward, by rw [eq_of_passes_done hrest, scanString, hlast]⟩
    | some b =>
      rw [hb] at hlast
      rw [hb, afterRead] at hrest
      split at hrest
      · rename_i hzero
        refine ⟨_, hforward, ?_⟩
        rw [eq_of_passes_done hrest, scanString, hlast]
        exact (if_pos hzero).symm
      split at hrest
      · rename_i hne hascii
        obtain ⟨moment, hmoment, hanswer⟩ := ih hrest
        refine ⟨_, hmoment.prepend s offset, ?_⟩
        have hfirst : byteOver (before ++ s :: later)
            (fun i => if i ≤ offset then before.length else before.length + 1 + moment i) address
            offset = some b := by
          rw [byteOver, if_pos (Nat.le_refl offset), hstate, Option.bind_some, hb]
        have hlater : ∀ i, offset + 1 ≤ i → byteOver later moment address i =
            byteOver (before ++ s :: later)
              (fun i => if i ≤ offset then before.length else before.length + 1 + moment i)
              address i := by
          intro i hi
          have hindex : (before ++ s :: later)[before.length + 1 + moment i]? =
              later[moment i]? := by
            rw [List.getElem?_append_right (by omega)]
            have hminus : before.length + 1 + moment i - before.length = moment i + 1 := by omega
            rw [hminus, List.getElem?_cons_succ]
          rw [byteOver, byteOver, if_neg (Nat.not_le_of_lt hi), hindex]
        rw [hanswer, scanString_congr address left _ hlater]
        conv => rhs; rw [scanString, hfirst]
        simp [hne, hascii]
      · rename_i hne hascii
        refine ⟨_, hforward, ?_⟩
        rw [eq_of_passes_done hrest, scanString, hlast]
        simp [hne, hascii]

end Moments

/-- Whatever is written during a call, a number or a character is the value at
one moment of the call.  A string tells of bytes that were there at moments of
the call, in the order of the moments, and it is the value at one moment
exactly if it tells of the bytes that were there at one moment. -/
theorem decode_among_writes {address : UInt32} {encoding : Encoding} {states : List Simulator}
    {answer : Except DecodeError String}
    (h : Passes Simulator.Writes (script address encoding) states answer) :
    (encoding ≠ .string → ∃ s ∈ states, answer = value s address encoding) ∧
    (encoding = .string →
      (∃ moment, Forward states moment ∧
        Tells (byteOver states moment address) address answer) ∧
      ((∃ s ∈ states, answer = value s address encoding) ↔
        ∃ s ∈ states, Tells (byteAt s address) address answer)) := by
  refine ⟨fun hencoding => ?_, fun hencoding => ?_⟩
  · cases encoding with
    | number size form => exact mem_of_passes_look h
    | character => exact mem_of_passes_look h
    | string => exact absurd rfl hencoding
  · subst hencoding
    obtain ⟨moment, hmoment, hanswer⟩ := exists_moments h
    refine ⟨⟨moment, hmoment, (scanString_eq_iff answer).1 hanswer.symm⟩, ?_⟩
    have hvalue : ∀ s : Simulator, answer = value s address .string ↔
        Tells (byteAt s address) address answer :=
      fun s => eq_comm.trans (scanString_eq_iff answer)
    simp only [hvalue]

/-- A memory that holds `AB` and a zero byte. -/
def lettersAB : Simulator := ((Simulator.blank 3).writeBlock 0 [0x41, 0x42, 0]).1

/-- The memory after `XY` and a zero byte were written over it. -/
def lettersXY : Simulator := (lettersAB.writeBlock 0 [0x58, 0x59, 0]).1

/-- The first letter is read before the write and the second one after it. -/
theorem passes_torn :
    Passes Simulator.Writes (script 0 .string)
      [lettersAB, lettersAB, lettersXY, lettersXY, lettersXY] (.ok "AY") := by
  have hwrite : Simulator.Writes lettersAB lettersXY := ⟨0, _, rfl⟩
  have hfirst : byteAt lettersAB 0 0 = some 0x41 := rfl
  have hsecond : byteAt lettersXY 0 1 = some 0x59 := rfl
  have hthird : byteAt lettersXY 0 2 = some 0 := rfl
  exact passes_character hfirst (by decide) rfl
    (.moved hwrite (passes_character hsecond (by decide) rfl (passes_end hthird)))

theorem torn_string_tells :
    ∃ states, Passes Simulator.Writes (script 0 .string) states (.ok "AY") ∧
      (∃ moment, Forward states moment ∧ Tells (byteOver states moment 0) 0 (.ok "AY")) ∧
      ∀ s ∈ states, ¬ Tells (byteAt s 0) 0 (.ok "AY") := by
  have hAB : value lettersAB 0 .string = .ok "AB" := rfl
  have hXY : value lettersXY 0 .string = .ok "XY" := rfl
  obtain ⟨htold, hone⟩ := (decode_among_writes passes_torn).2 rfl
  refine ⟨_, passes_torn, htold, fun s hs htells => ?_⟩
  obtain ⟨t, ht, hvalue⟩ := hone.2 ⟨s, hs, htells⟩
  simp only [List.mem_cons, List.not_mem_nil, or_false] at ht
  rcases ht with rfl | rfl | rfl | rfl | rfl <;> simp [hAB, hXY] at hvalue

/-- A string need not be the value at any moment of the call. -/
theorem torn_string :
    ∃ states answer, Passes Simulator.Writes (script 0 .string) states answer ∧
      ∀ s ∈ states, answer ≠ value s 0 .string := by
  have hAB : value lettersAB 0 .string = .ok "AB" := rfl
  have hXY : value lettersXY 0 .string = .ok "XY" := rfl
  exact ⟨_, _, passes_torn, by simp [hAB, hXY]⟩

end Decode

end Monitor68
