import Monitor68.Json.Skip
import Monitor68.Proofs.Json.Lexing

/-!
# Passing over what the grammar derives

The walk along the tokens of a value comes to the end of the value and not
further, however deep it nests.  The proof is one induction on the
derivation: the walk keeps the open brackets in a list, and what it makes
of a phrase depends on that list only through the bracket that the phrase
stands in.
-/

namespace Monitor68.Json

/-- Go on along tokens with what the walk came to. -/
def Walk.along : Walk → List Token → Except Fault (List Token)
  | .over, rest => .ok rest
  | .goes brackets awaited, rest => walkAlong brackets awaited rest

theorem walkAlong_cons {brackets : List Bracket} {awaited : Awaited} {token : Token} {next : Walk}
    (h : walk brackets awaited token = .ok next) (rest : List Token) :
    walkAlong brackets awaited (token :: rest) = next.along rest := by
  rw [walkAlong, h]
  cases next <;> rfl

/-- Where a value is awaited, also the end of an array may be. -/
def Awaited.forValue : List Awaited := [.value, .valueOrEnd]

def Awaited.forKey : List Awaited := [.key, .keyOrEnd]

theorem walk_value {brackets : List Bracket} {awaited : Awaited} {token : Token} {next : Walk}
    (hawaited : awaited ∈ Awaited.forValue) (h : walkValue brackets token = .ok next) :
    walk brackets awaited token = .ok next := by
  simp only [Awaited.forValue, List.mem_cons, List.not_mem_nil, or_false] at hawaited
  obtain rfl | rfl := hawaited
  · exact h
  · cases token with
    | endArray => cases h
    | _ => exact h

theorem walk_key {brackets : List Bracket} {awaited : Awaited} {pieces : List Piece}
    (hawaited : awaited ∈ Awaited.forKey) :
    walk brackets awaited (.string pieces none) = .ok (.goes brackets .colon) := by
  simp only [Awaited.forKey, List.mem_cons, List.not_mem_nil, or_false] at hawaited
  obtain rfl | rfl := hawaited <;> rfl

/-- What the walk makes of the tokens of a phrase.  Elements and members are
taken together with the end of their bracket. -/
def Phrase.Walked (tokens : List Token) : Phrase → Prop
  | .value | .element => ∀ brackets, ∀ awaited ∈ Awaited.forValue, ∀ rest,
    walkAlong brackets awaited (tokens ++ rest) = (Walk.afterValue brackets).along rest
  | .elements => ∀ outer, ∀ awaited ∈ Awaited.forValue, ∀ rest,
    walkAlong (.array :: outer) awaited (tokens ++ .endArray :: rest) =
      (Walk.afterValue outer).along rest
  | .member => ∀ outer, ∀ awaited ∈ Awaited.forKey, ∀ rest,
    walkAlong (.object :: outer) awaited (tokens ++ rest) =
      walkAlong (.object :: outer) .separator rest
  | .members => ∀ outer, ∀ awaited ∈ Awaited.forKey, ∀ rest,
    walkAlong (.object :: outer) awaited (tokens ++ .endObject :: rest) =
      (Walk.afterValue outer).along rest

/-- A value of one token. -/
theorem walked_token {token : Token}
    (h : ∀ brackets, walkValue brackets token = .ok (.afterValue brackets)) :
    Phrase.value.Walked [token] :=
  fun brackets _ hawaited rest => walkAlong_cons (walk_value hawaited (h brackets)) rest

/-- A value in brackets, from what the walk makes of what is in them. -/
theorem walked_enclosed {bracket : Bracket} {opening closing : Token} {awaited : Awaited}
    {tokens : List Token}
    (hopen : ∀ outer, walkValue outer opening = .ok (.goes (bracket :: outer) awaited))
    (hwalked : ∀ outer rest, walkAlong (bracket :: outer) awaited (tokens ++ closing :: rest) =
      (Walk.afterValue outer).along rest) :
    Phrase.value.Walked (opening :: (tokens ++ [closing])) := by
  intro brackets _ hawaited rest
  rw [List.cons_append, List.append_assoc,
    walkAlong_cons (walk_value hawaited (hopen brackets))]
  exact hwalked brackets rest

/-- What the grammar derives is cut into tokens that the walk takes for the
phrase. -/
theorem Derives.walked {phrase : Phrase} {cs : List Char} (h : Derives phrase cs) :
    ∃ tokens, Lexes cs tokens ∧ phrase.Walked tokens := by
  induction h with
  | word mem =>
    simp only [List.mem_cons, List.not_mem_nil, or_false] at mem
    obtain rfl | rfl | rfl := mem
    · exact ⟨_, lexes_null, walked_token fun _ => rfl⟩
    · exact ⟨_, lexes_true, walked_token fun _ => rfl⟩
    · exact ⟨_, lexes_false, walked_token fun _ => rfl⟩
  | number isNumber =>
    obtain ⟨n, hlexes⟩ := isNumber.lexes
    exact ⟨_, hlexes, walked_token fun _ => rfl⟩
  | string letters => exact ⟨_, letters.lexes, walked_token fun _ => rfl⟩
  | emptyArray isGap =>
    exact ⟨_, isGap.lexes.enclosed mark_beginArray mark_endArray,
      walked_enclosed (fun _ => rfl) fun _ rest => walkAlong_cons rfl rest⟩
  | array _ ih =>
    obtain ⟨tokens, hlexes, hwalked⟩ := ih
    exact ⟨_, hlexes.enclosed mark_beginArray mark_endArray,
      walked_enclosed (fun _ => rfl) fun outer => hwalked outer .valueOrEnd (by decide)⟩
  | emptyObject isGap =>
    exact ⟨_, isGap.lexes.enclosed mark_beginObject mark_endObject,
      walked_enclosed (fun _ => rfl) fun _ rest => walkAlong_cons rfl rest⟩
  | object _ ih =>
    obtain ⟨tokens, hlexes, hwalked⟩ := ih
    exact ⟨_, hlexes.enclosed mark_beginObject mark_endObject,
      walked_enclosed (fun _ => rfl) fun outer => hwalked outer .keyOrEnd (by decide)⟩
  | element isGap _ isGap' ih =>
    obtain ⟨tokens, hlexes, hwalked⟩ := ih
    exact ⟨tokens, (hlexes.before_gap isGap').behind_gap isGap, hwalked⟩
  | lastElement _ ih =>
    obtain ⟨tokens, hlexes, hwalked⟩ := ih
    refine ⟨tokens, hlexes, fun outer awaited hawaited rest => ?_⟩
    rw [hwalked _ awaited hawaited]
    exact walkAlong_cons rfl rest
  | nextElement _ _ ih ihs =>
    obtain ⟨tokens, hlexes, hwalked⟩ := ih
    obtain ⟨others, hlexes', hwalked'⟩ := ihs
    refine ⟨_, hlexes.joined mark_comma hlexes', fun outer awaited hawaited rest => ?_⟩
    -- Behind a comma the array may not end: what is awaited is a value.
    rw [List.append_assoc, hwalked _ awaited hawaited]
    exact hwalked' outer .value (by decide) rest
  | member isGap letters isGap' _ ih =>
    obtain ⟨tokens, hlexes, hwalked⟩ := ih
    have hkey := letters.lexes.before_gap isGap'
    refine ⟨_, by simpa using (hkey.joined mark_colon hlexes).behind_gap isGap,
      fun outer awaited hawaited rest => ?_⟩
    rw [List.cons_append, walkAlong_cons (walk_key hawaited)]
    exact hwalked (.object :: outer) .value (by decide) rest
  | lastMember _ ih =>
    obtain ⟨tokens, hlexes, hwalked⟩ := ih
    refine ⟨tokens, hlexes, fun outer awaited hawaited rest => ?_⟩
    rw [hwalked outer awaited hawaited]
    exact walkAlong_cons rfl rest
  | nextMember _ _ ih ihs =>
    obtain ⟨tokens, hlexes, hwalked⟩ := ih
    obtain ⟨others, hlexes', hwalked'⟩ := ihs
    refine ⟨_, hlexes.joined mark_comma hlexes', fun outer awaited hawaited rest => ?_⟩
    rw [List.append_assoc, hwalked outer awaited hawaited]
    exact hwalked' outer .key (by decide) rest

/-- Passing over a value comes to the end of the value. -/
theorem Derives.skipped {cs : List Char} (h : Derives .value cs) :
    ∃ tokens, Lexes cs tokens ∧ ∀ rest, skipValue (tokens ++ rest) = .ok rest := by
  obtain ⟨tokens, hlexes, hwalked⟩ := h.walked
  exact ⟨tokens, hlexes, hwalked [] .value (by decide)⟩

end Monitor68.Json
