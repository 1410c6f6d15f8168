import Mathlib.Data.List.Induction
import Monitor68.Proofs.Inspect.Watching

/-!
# What a watched variable keeps

A variable keeps the text that it was last refreshed to.  What it shows is
decided by its address and its encoding, and both can change: a symbol that
moves takes its value with it, but a variable that is shown in another
encoding keeps the text of the old one until the next refresh.

`Stored` says what a kept text is worth after a refresh and requests that
refresh nothing: it is the text that the variable's address gave then, in
the encoding of that time, unless the variable was added or moved since and
has none.  `Current` is what the text ought to be, and the one way to miss
it is a new encoding since the last refresh.
-/

namespace Monitor68.WatchList

variable {ε : Type} [Engine ε]

/-- A value that belongs to the variable as it is: none, or the text that its
address and its encoding gave at some refresh of the history. -/
def Current (history : List (Request ε)) (v : Watch) : Prop :=
  v.value = "" ∨ ∃ before engine after, history = before ++ .refresh engine :: after ∧
    v.value = Decode.shown engine v.address v.encoding

/-- Requests that refresh nothing. -/
def Quiet (requests : List (Request ε)) : Prop := ∀ engine, .refresh engine ∉ requests

/-- What a variable keeps when a list was refreshed and some requests came after
that: nothing, if it was added or moved since, or else what its address gave
in the encoding that it had.  If it has another encoding now, it was given
that one since. -/
inductive Stored (w : WatchList) (engine : ε) (after : List (Request ε)) (v : Watch) : Prop where
  | blank (value_eq : v.value = "")
      (since : v.id ∈ issuedBy (w.refresh engine) after ∨
        ∃ name, .addSymbol name v.address ∈ after)
  | kept (u : Watch) (mem : u ∈ w.watches) (id_eq : u.id = v.id)
      (address_eq : u.address = v.address)
      (value_eq : v.value = Decode.shown engine u.address u.encoding)
      (encoding_eq : u.encoding = v.encoding ∨ .setEncoding v.id v.encoding ∈ after)

/-! ## Requests one after the other -/

section Run

variable (w : WatchList)

theorem through_concat (history : List (Request ε)) (request : Request ε) :
    w.through (history ++ [request]) = request.apply (w.through history) := by
  rw [through, List.foldl_concat]
  rfl

theorem issuedBy_concat (history : List (Request ε)) (request : Request ε) :
    issuedBy w (history ++ [request]) =
      issuedBy w history ++ (request.issued (w.through history)).toList := by
  induction history generalizing w with
  | nil => simp [issuedBy, through]
  | cons first rest ih =>
    rw [List.cons_append, issuedBy, ih, issuedBy, List.append_assoc]
    rfl

omit [Engine ε] in
/-- The last refresh of a history that is not quiet. -/
theorem exists_last_refresh {history : List (Request ε)} (h : ¬ Quiet history) :
    ∃ before engine after, history = before ++ .refresh engine :: after ∧ Quiet after := by
  induction history with
  | nil => exact absurd (fun engine hmem => nomatch hmem) h
  | cons request rest ih =>
    by_cases hrest : Quiet rest
    · cases request with
      | refresh engine => exact ⟨[], engine, rest, rfl, hrest⟩
      | _ => exact absurd (fun engine hmem => by simpa using hrest engine (by simpa using hmem)) h
    · obtain ⟨before, engine, after, rfl, hafter⟩ := ih hrest
      exact ⟨request :: before, engine, after, rfl, hafter⟩

/-- What is behind a variable after a request: a variable that it follows, or
nothing if it is new. -/
theorem mem_apply_cases {request : Request ε} {v : Watch} (h : v ∈ (request.apply w).watches) :
    (∃ u ∈ w.watches, Follows request u v) ∨
      v.value = "" ∧ request.issued w = some v.id := by
  by_cases hrefresh : ∃ engine, request = .refresh engine
  · obtain ⟨engine, rfl⟩ := hrefresh
    obtain ⟨u, hu, rfl⟩ := List.mem_map.1 h
    exact .inl ⟨u, hu, .refreshed engine u⟩
  · have hsame : ∀ u, Follows request u u :=
      fun u => .same request u fun engine heq => hrefresh ⟨engine, heq⟩
    rcases apply_cases w request with
      ⟨-, hissued, added, hadded, happly⟩ | ⟨-, watches, happly, ⟨-, hsub⟩ | ⟨-, hfollows⟩⟩
    · rw [happly] at h
      obtain h | h := List.mem_append.1 h
      · exact .inl ⟨v, h, hsame v⟩
      · rw [List.mem_singleton.1 h]
        exact .inr ⟨hadded.value_eq, hadded.id_eq ▸ hissued⟩
    · rw [happly] at h
      exact .inl ⟨v, hsub.mem h, hsame v⟩
    · rw [happly] at h
      obtain ⟨i, hi, rfl⟩ := List.getElem_of_mem h
      exact .inl ⟨_, List.getElem_mem _, hfollows.get (by rw [hfollows.length_eq]; exact hi) hi⟩

variable {w} {engine : ε} {after : List (Request ε)} {v : Watch}

theorem Stored.concat (h : Stored w engine after v) (request : Request ε) :
    Stored w engine (after ++ [request]) v := by
  have hmem : ∀ {r : Request ε}, r ∈ after → r ∈ after ++ [request] :=
    fun hr => List.mem_append_left _ hr
  cases h with
  | blank value_eq since =>
    refine .blank value_eq (since.imp (fun hid => ?_) fun hmoved => ?_)
    · rw [issuedBy_concat]
      exact List.mem_append_left _ hid
    · obtain ⟨name, hname⟩ := hmoved
      exact ⟨name, hmem hname⟩
  | kept u mem id_eq address_eq value_eq encoding_eq =>
    exact .kept u mem id_eq address_eq value_eq (encoding_eq.imp id hmem)

/-- Behind a refresh the variables keep what it gave them, along any requests
that refresh nothing. -/
theorem stored_of_quiet (hquiet : Quiet after)
    (hv : v ∈ ((w.refresh engine).through after).watches) : Stored w engine after v := by
  induction after using List.reverseRecOn generalizing v with
  | nil =>
    obtain ⟨u, hu, rfl⟩ := List.mem_map.1 hv
    exact .kept u hu rfl rfl rfl (.inl rfl)
  | append_singleton after request ih =>
    have hbefore : Quiet after := fun e he => hquiet e (List.mem_append_left _ he)
    have hlast : request ∈ after ++ [request] := by simp
    rw [through_concat] at hv
    rcases mem_apply_cases _ hv with ⟨u, hu, hfollows⟩ | ⟨hvalue, hissued⟩
    · have hstored := (ih hbefore hu).concat request
      cases hfollows with
      | same => exact hstored
      | moved address hmoved => exact .blank rfl (.inr ⟨u.name, hlast⟩)
      | recoded encoding =>
        cases hstored with
        | blank value_eq since => exact .blank value_eq since
        | kept u' mem id_eq address_eq value_eq _ =>
          exact .kept u' mem id_eq address_eq value_eq (.inr hlast)
      | refreshed e => exact absurd hlast (hquiet e)
    · refine .blank hvalue (.inl ?_)
      rw [issuedBy_concat, hissued]
      simp

/-- Without a refresh nothing has a value. -/
theorem value_of_quiet {history : List (Request ε)} (hquiet : Quiet history)
    (hv : v ∈ (WatchList.empty.through history).watches) : v.value = "" := by
  induction history using List.reverseRecOn generalizing v with
  | nil => exact nomatch hv
  | append_singleton history request ih =>
    have hbefore : Quiet history := fun e he => hquiet e (List.mem_append_left _ he)
    rw [through_concat] at hv
    rcases mem_apply_cases _ hv with ⟨u, hu, hfollows⟩ | ⟨hvalue, -⟩
    · have hblank := ih hbefore hu
      cases hfollows with
      | same => exact hblank
      | moved => rfl
      | recoded => exact hblank
      | refreshed e => exact absurd (by simp) (hquiet e)
    · exact hvalue

end Run

/-! ## Any history -/

/-- After any history a variable has no value, or it has the text that its
address gave at the last refresh in the encoding that it had then.  So its
value belongs to the variable as it is, unless it was given its encoding
since the last refresh.  A refresh makes every value current. -/
theorem stored_values_of_last_refresh (history : List (Request ε)) :
    let w := WatchList.empty.through history
    (∀ engine : ε, ∀ v ∈ (w.refresh engine).watches,
      v.value = Decode.shown engine v.address v.encoding) ∧
    ∀ v ∈ w.watches,
      (Quiet history ∧ v.value = "" ∨
        ∃ before engine after, history = before ++ .refresh engine :: after ∧ Quiet after ∧
          Stored (WatchList.empty.through before) engine after v) ∧
      (Current history v ∨
        ∃ before engine after, history = before ++ .refresh engine :: after ∧ Quiet after ∧
          .setEncoding v.id v.encoding ∈ after) := by
  intro w
  constructor
  · intro engine v hv
    obtain ⟨u, -, rfl⟩ := List.mem_map.1 hv
    rfl
  · intro v hv
    by_cases hquiet : Quiet history
    · have hvalue := value_of_quiet hquiet hv
      exact ⟨.inl ⟨hquiet, hvalue⟩, .inl (.inl hvalue)⟩
    · obtain ⟨before, engine, after, rfl, hafter⟩ := exists_last_refresh hquiet
      have hsplit : w = ((WatchList.empty.through before).refresh engine).through after := by
        show (before ++ .refresh engine :: after).foldl Request.apply WatchList.empty = _
        rw [List.foldl_append]
        rfl
      rw [hsplit] at hv
      have hstored := stored_of_quiet hafter hv
      refine ⟨.inr ⟨before, engine, after, rfl, hafter, hstored⟩, ?_⟩
      cases hstored with
      | blank value_eq _ => exact .inl (.inl value_eq)
      | kept u mem id_eq address_eq value_eq encoding_eq =>
        obtain hsame | hrecoded := encoding_eq
        · rw [address_eq, hsame] at value_eq
          exact .inl (.inr ⟨before, engine, after, rfl, value_eq⟩)
        · exact .inr ⟨before, engine, after, rfl, hafter, hrecoded⟩

/-- One variable that is refreshed and then shown in another encoding. -/
def recoded : List (Request Simulator) :=
  [.add 0 none .unsignedByte, .refresh (Simulator.blank 16), .setEncoding 0 (.number .word .hex)]

theorem recoded_keeps_old_text :
    ∃ v ∈ (WatchList.empty.through recoded).watches,
      v.encoding = .number .word .hex ∧ v.value = "0" ∧
      ∃ before engine after, recoded = before ++ .refresh engine :: after ∧ Quiet after ∧
        Stored (WatchList.empty.through before) engine after v := by
  obtain ⟨-, hstored⟩ := stored_values_of_last_refresh recoded
  have hmem : ⟨0, 0, "userdef_0", .number .word .hex, "0"⟩ ∈
      (WatchList.empty.through recoded).watches := by decide +kernel
  refine ⟨_, hmem, rfl, rfl, ?_⟩
  obtain ⟨⟨hquiet, -⟩ | hlast, -⟩ := hstored _ hmem
  · exact absurd (by simp [recoded]) (hquiet (Simulator.blank 16))
  · exact hlast

/-- The text of a variable need not belong to it as it is. -/
theorem recoded_is_not_current :
    ¬ ∀ history : List (Request Simulator),
      ∀ v ∈ (WatchList.empty.through history).watches, Current history v := by
  intro h
  obtain hblank | ⟨before, engine, after, hsplit, hvalue⟩ :=
    h recoded ⟨0, 0, "userdef_0", .number .word .hex, "0"⟩ (by decide +kernel)
  · exact absurd hblank (by decide)
  · have hmem : Request.refresh engine ∈ recoded := by simp [hsplit]
    obtain rfl : engine = Simulator.blank 16 := by simpa [recoded] using hmem
    exact absurd hvalue (by decide +kernel)

end Monitor68.WatchList
