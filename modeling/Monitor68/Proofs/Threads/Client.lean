import Monitor68.Proofs.Threads.Script
import Monitor68.Proofs.Threads.Trace

/-!
# A client among threads

A client asks for one operation after the other, and each operation is a
script over a state that other threads move as well.  A `Service` says
what can be asked for and what the threads do; a `Client` is the state
with the rest of the operation in progress.

A `Contract` is what the client and the threads owe each other.  Both keep
some property of the state; the threads do no more than the client relies
on; and each script, begun where the state is at rest, does no more than
it yields and ends as it was told to.  A contract may be about some of the
requests only, so that several contracts describe one service: what holds
at any moment, and what holds while certain requests are not made.

`Contract.Sound.of_trace` is the run lemma that all of them share.
`Contract.Recalls.of_trace` is what it says of a property that only some
of the requests keep, and that may speak of the states before.
-/

namespace Monitor68

open Script

/-- What can be asked for over a shared state, and what the threads do. -/
structure Service (σ ρ κ α τ : Type) where
  script : ρ → Script σ α
  /-- What is noted down when an operation begins. -/
  note : σ → κ
  Moves : τ → σ → σ → Prop

/-- An operation in progress. -/
structure Call (σ ρ κ α : Type) where
  request : ρ
  note : κ
  rest : Script σ α

/-- A shared state and its client. -/
structure Client (σ ρ κ α : Type) where
  state : σ
  call : Option (Call σ ρ κ α) := none

/-- What an observer sees happen. -/
inductive ClientEvent (ρ κ α τ : Type) where
  | begun (request : ρ)
  | acted
  | moved (thread : τ)
  | returned (request : ρ) (note : κ) (answer : α)

/-- Whether a request that begins is admitted. -/
def ClientEvent.Admitted {ρ κ α τ : Type} (admits : ρ → Prop) : ClientEvent ρ κ α τ → Prop
  | .begun request => admits request
  | _ => True

theorem ClientEvent.admitted {ρ κ α τ : Type} {admits : ρ → Prop} (h : ∀ request, admits request)
    (e : ClientEvent ρ κ α τ) : e.Admitted admits := by
  cases e with
  | begun request => exact h request
  | _ => trivial

theorem ClientEvent.Admitted.mono {ρ κ α τ : Type} {admits admits' : ρ → Prop}
    {e : ClientEvent ρ κ α τ} (he : e.Admitted admits)
    (h : ∀ request, admits request → admits' request) : e.Admitted admits' := by
  cases e with
  | begun request => exact h request he
  | _ => trivial

namespace Service

variable {σ ρ κ α τ : Type} {S : Service σ ρ κ α τ}

/-- One step of the client or of a thread. -/
inductive Step (S : Service σ ρ κ α τ) :
    ClientEvent ρ κ α τ → Client σ ρ κ α → Client σ ρ κ α → Prop where
  | begin {c : Client σ ρ κ α} (request : ρ) (h : c.call = none) :
      S.Step (.begun request) c
        { c with call := some ⟨request, S.note c.state, S.script request⟩ }
  | act {c : Client σ ρ κ α} {request : ρ} {note : κ} {ready : σ → Bool} {effect : σ → σ}
      {next : σ → Script σ α} (h : c.call = some ⟨request, note, .act ready effect next⟩)
      (hready : ready c.state = true) :
      S.Step .acted c { state := effect c.state, call := some ⟨request, note, next c.state⟩ }
  | move {c : Client σ ρ κ α} {thread : τ} {s : σ} (h : S.Moves thread c.state s) :
      S.Step (.moved thread) c { c with state := s }
  | leave {c : Client σ ρ κ α} {request : ρ} {note : κ} {answer : α}
      (h : c.call = some ⟨request, note, .done answer⟩) :
      S.Step (.returned request note answer) c { c with call := none }

/-- In a run that led to `y`, an operation was begun at some moment and none
after it. -/
def Underway (S : Service σ ρ κ α τ) (request : ρ) (note : κ) (c : Client σ ρ κ α)
    (events : List (ClientEvent ρ κ α τ)) (y : List (Client σ ρ κ α) × Client σ ρ κ α) : Prop :=
  ∃ start during begun, events = start ++ .begun request :: during ∧
    (∀ e ∈ during, e.Admitted fun _ => False) ∧ y.1[start.length]? = some begun ∧
    begun.call = none ∧ S.note begun.state = note ∧ Trace S.Step c start begun ∧
    Trace (Recorded S.Step) ([], begun) (.begun request :: during) (y.1.drop start.length, y.2)

section Underway

variable {request : ρ} {note : κ} {c : Client σ ρ κ α} {events : List (ClientEvent ρ κ α τ)}
variable {e : ClientEvent ρ κ α τ} {y z : List (Client σ ρ κ α) × Client σ ρ κ α}

/-- What goes on with an operation leaves its beginning where it was. -/
theorem Underway.snoc (h : S.Underway request note c events y)
    (he : e.Admitted fun _ => False) (hstep : Recorded S.Step e y z) :
    S.Underway request note c (events ++ [e]) z := by
  obtain ⟨start, during, begun, rfl, hduring, hbegun, hidle, hnote, hstart, hrest⟩ := h
  cases hstep with
  | @step past d d' hd =>
    have hlt : start.length < past.length := (List.getElem?_eq_some_iff.1 hbegun).1
    have hlater : ∀ e' ∈ during ++ [e], e'.Admitted fun _ => False :=
      List.forall_mem_append.2 ⟨hduring, List.forall_mem_singleton.2 he⟩
    refine ⟨start, during ++ [e], begun, by simp, hlater, ?_, hidle, hnote, hstart, ?_⟩
    · rwa [List.getElem?_append_left hlt]
    · rw [List.drop_append_of_le_length (Nat.le_of_lt hlt)]
      exact hrest.snoc (.step hd)

/-- The operation in progress has begun on the way. -/
theorem underway_of_trace (h : Trace (Recorded S.Step) ([], c) events y) (hidle : c.call = none) :
    ∀ call ∈ y.2.call, S.Underway call.request call.note c events y := by
  induction h with
  | nil => simp [hidle]
  | @snoc y z es e path hstep ih =>
    intro call hcall
    cases hstep with
    | @step past d d' hd =>
      cases hd with
      | begin request hnone =>
        cases hcall
        obtain ⟨moments, hmoments, hlength, -⟩ := path.exists_moments
        have hpast : past.length = es.length := by rwa [hmoments, List.nil_append]
        refine ⟨es, [], d, rfl, by simp, by simp [← hpast], hnone, rfl, path.of_recorded, ?_⟩
        have hsince : (past ++ [d]).drop es.length = [d] := by rw [← hpast, List.drop_left]
        rw [hsince]
        exact .cons (.step (.begin request hnone)) .nil
      | act hc hready =>
        cases hcall
        exact (ih _ hc).snoc trivial (.step (.act hc hready))
      | move hmove => exact (ih call hcall).snoc trivial (.step (.move hmove))
      | leave _ => cases hcall

end Underway

/-- What the client and the threads owe each other. -/
structure Contract (S : Service σ ρ κ α τ) where
  /-- The requests that the contract is about. -/
  Admits : ρ → Prop
  /-- What all of them keep. -/
  Keeps : σ → Prop
  /-- What holds besides while no operation is in progress. -/
  Rests : σ → Prop
  /-- What the client relies on. -/
  Rely : σ → σ → Prop
  /-- What each step of an operation yields. -/
  Yields : ρ → σ → σ → Prop
  /-- What holds when an operation has ended with an answer. -/
  Told : ρ → κ → α → σ → Prop
  moves {thread : τ} {s t : σ} : Keeps s → S.Moves thread s t → Keeps t ∧ Rely s t
  yields {request : ρ} {s t : σ} : Keeps s → Yields request s t → Keeps t
  rests : Stable Rely Rests
  told {request : ρ} {note : κ} {answer : α} {s : σ} : Told request note answer s → Rests s
  script {request : ρ} {s : σ} : Admits request → Keeps s → Rests s →
    Ensures Rely (Yields request) (Told request (S.note s)) (S.script request) s

namespace Contract

variable (C : S.Contract)

/-- What a contract makes of a client at any moment. -/
structure Sound (c : Client σ ρ κ α) : Prop where
  keeps : C.Keeps c.state
  rests : c.call = none → C.Rests c.state
  owes : ∀ call ∈ c.call, C.Admits call.request ∧
    Ensures C.Rely (C.Yields call.request) (C.Told call.request call.note) call.rest c.state

variable {C} {c c' : Client σ ρ κ α} {e : ClientEvent ρ κ α τ}

theorem sound_of_idle {s : σ} (hkeeps : C.Keeps s) (hrests : C.Rests s) :
    C.Sound { state := s } :=
  ⟨hkeeps, fun _ => hrests, by simp⟩

namespace Sound

/-- The step of an operation yields what its request allows. -/
theorem act {request : ρ} {note : κ} {ready : σ → Bool} {effect : σ → σ}
    {next : σ → Script σ α} (h : C.Sound c)
    (hcall : c.call = some ⟨request, note, .act ready effect next⟩)
    (hready : ready c.state = true) :
    C.Yields request c.state (effect c.state) ∧
      Ensures C.Rely (C.Yields request) (C.Told request note) (next c.state)
        (effect c.state) := by
  obtain ⟨-, howes⟩ := h.owes _ hcall
  exact howes c.state .refl hready

/-- What holds when an operation has ended. -/
theorem told {request : ρ} {note : κ} {answer : α} (h : C.Sound c)
    (hcall : c.call = some ⟨request, note, .done answer⟩) :
    C.Told request note answer c.state := by
  obtain ⟨-, howes⟩ := h.owes _ hcall
  exact howes c.state .refl

/-- The step lemma. -/
theorem step (h : C.Sound c) (he : e.Admitted C.Admits) (hstep : S.Step e c c') :
    C.Sound c' := by
  cases hstep with
  | begin request hcall =>
    refine ⟨h.keeps, by simp, fun call hc => ?_⟩
    cases hc
    exact ⟨he, C.script he h.keeps (h.rests hcall)⟩
  | act hcall hready =>
    obtain ⟨hyields, hrest⟩ := h.act hcall hready
    refine ⟨C.yields h.keeps hyields, by simp, fun call hc => ?_⟩
    cases hc
    exact ⟨(h.owes _ hcall).1, hrest⟩
  | move hmove =>
    obtain ⟨hkeeps, hrely⟩ := C.moves h.keeps hmove
    refine ⟨hkeeps, fun hcall => C.rests _ _ (h.rests hcall) hrely, fun call hc => ?_⟩
    obtain ⟨hadmits, howes⟩ := h.owes call hc
    exact ⟨hadmits, howes.moved hrely⟩
  | leave hcall => exact ⟨h.keeps, fun _ => C.told (h.told hcall), by simp⟩

/-- The run lemma. -/
theorem of_trace {events : List (ClientEvent ρ κ α τ)} (h : C.Sound c)
    (hadmitted : ∀ e ∈ events, e.Admitted C.Admits) (htrace : Trace S.Step c events c') :
    C.Sound c' :=
  htrace.keeps (fun _ _ _ he h hstep => h.step he hstep) hadmitted h

/-- What has just been answered holds. -/
theorem of_returned {request : ρ} {note : κ} {answer : α} (h : C.Sound c)
    (hstep : S.Step (.returned request note answer) c c') :
    c'.call = none ∧ C.Told request note answer c'.state := by
  cases hstep with
  | leave hcall => exact ⟨rfl, h.told hcall⟩

end Sound

/-! ## While only some of the requests are made -/

/-- A property of a state and of the states before it that is kept under a
contract by the passing of time, by the threads and by certain requests. -/
structure Remembered (C : S.Contract) (admits : ρ → Prop) (P : List σ → σ → Prop) : Prop where
  admitted {request : ρ} : admits request → C.Admits request
  waits {past : List σ} {s : σ} : P past s → P (past ++ [s]) s
  moves {thread : τ} {past : List σ} {s t : σ} :
    C.Keeps s → S.Moves thread s t → P past s → P (past ++ [s]) t
  yields {request : ρ} {past : List σ} {s t : σ} :
    admits request → C.Keeps s → C.Yields request s t → P past s → P (past ++ [s]) t

/-- A contract is sound, the operation in progress is one of certain requests,
and a property holds of the state and of the states before it. -/
structure Recalls (C : S.Contract) (admits : ρ → Prop) (P : List σ → σ → Prop)
    (past : List (Client σ ρ κ α)) (c : Client σ ρ κ α) : Prop where
  sound : C.Sound c
  request : ∀ call ∈ c.call, admits call.request
  holds : P (past.map Client.state) c.state

section Remembered

variable {admits : ρ → Prop} {P : List σ → σ → Prop} {past past' : List (Client σ ρ κ α)}

/-- The step lemma. -/
theorem Recalls.step (h : C.Recalls admits P past c) (hP : C.Remembered admits P)
    (he : e.Admitted admits) (hstep : S.Step e c c') :
    C.Recalls admits P (past ++ [c]) c' := by
  have hpast : (past ++ [c]).map Client.state = past.map Client.state ++ [c.state] := by
    rw [List.map_append, List.map_singleton]
  refine ⟨h.sound.step (he.mono fun _ => hP.admitted) hstep, ?_, ?_⟩
  · cases hstep with
    | begin request _ =>
      intro call hc
      cases hc
      exact he
    | act hcall _ =>
      have hrequest := h.request _ hcall
      intro call hc
      cases hc
      exact hrequest
    | move _ => exact h.request
    | leave _ => simp
  · rw [hpast]
    cases hstep with
    | begin request _ => exact hP.waits h.holds
    | act hcall hready =>
      obtain ⟨hyields, -⟩ := h.sound.act hcall hready
      exact hP.yields (h.request _ hcall) h.sound.keeps hyields h.holds
    | move hmove => exact hP.moves h.sound.keeps hmove h.holds
    | leave _ => exact hP.waits h.holds

/-- The run lemma. -/
theorem Recalls.of_trace {events : List (ClientEvent ρ κ α τ)} (h : C.Recalls admits P past c)
    (hP : C.Remembered admits P) (hadmitted : ∀ e ∈ events, e.Admitted admits)
    (htrace : Trace (Recorded S.Step) (past, c) events (past', c')) :
    C.Recalls admits P past' c' := by
  refine htrace.keeps (P := fun x => C.Recalls admits P x.1 x.2) ?_ hadmitted h
  intro e x y he hx hstep
  cases hstep with
  | step hstep => exact hx.step hP he hstep

end Remembered

/-- A property that the threads keep under a contract, and certain of its
requests as well. -/
structure Kept (C : S.Contract) (admits : ρ → Prop) (P : σ → Prop) : Prop where
  admitted {request : ρ} : admits request → C.Admits request
  moves {thread : τ} {s t : σ} : C.Keeps s → S.Moves thread s t → P s → P t
  yields {request : ρ} {s t : σ} :
    admits request → C.Keeps s → C.Yields request s t → P s → P t

theorem Kept.remembered {admits : ρ → Prop} {P : σ → Prop} (h : C.Kept admits P) :
    C.Remembered admits fun _ => P :=
  ⟨h.admitted, id, h.moves, h.yields⟩

/-- What holds while no operation is in progress goes on to hold as long as only
requests are made that keep it. -/
theorem Kept.of_trace {admits : ρ → Prop} {P : σ → Prop} {events : List (ClientEvent ρ κ α τ)}
    (hP : C.Kept admits P) (h : C.Sound c) (hidle : c.call = none) (hstart : P c.state)
    (hadmitted : ∀ e ∈ events, e.Admitted admits) (htrace : Trace S.Step c events c') :
    C.Keeps c'.state ∧ P c'.state := by
  obtain ⟨all, hrecorded⟩ := htrace.exists_recorded []
  have hrecalls : C.Recalls admits (fun _ => P) [] c := ⟨h, by simp [hidle], hstart⟩
  have hend := hrecalls.of_trace hP.remembered hadmitted hrecorded
  exact ⟨hend.sound.keeps, hend.holds⟩

end Contract

end Service

end Monitor68
