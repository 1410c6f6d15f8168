import Monitor68.Json.Lexer
import Monitor68.Json.Record
import Monitor68.Proofs.Json.Grammar
import Monitor68.Proofs.Text.Numerals

/-!
# Cutting what the grammar derives

`Lexes` says what tokens a text is cut into, whatever stands behind it.
Only a number cares about that, since it goes on as long as it can: what
stands behind a text must not prolong a number, which `Stops` says.

The scanner counts characters down, and how far it has counted when it
comes to the end of a text is of no interest.  So `Lexes` only says that
the count is still sufficient for the rest, and then texts that are put
together are cut into their tokens put together.
-/

namespace Monitor68.Json

open Monitor68.Text

/-- A text that prolongs no number in front of it. -/
def Stops (rest : List Char) : Prop := ∀ c ∈ rest.head?, ¬ c.isDigit ∧ c ∉ ['.', 'e', 'E']

/-- A text that may stand behind a number if what follows it may. -/
def Severs (cs : List Char) : Prop := ∀ rest, Stops rest → Stops (cs ++ rest)

/-- The tokens that a text is cut into. -/
def Lexes (cs : List Char) (tokens : List Token) : Prop :=
  ∀ rest fuel, Stops rest → (cs ++ rest).length ≤ fuel →
    ∃ left, rest.length ≤ left ∧ lexFrom fuel (cs ++ rest) = tokens ++ lexFrom left rest

/-! ## What may stand behind a number -/

theorem stops_nil : Stops [] := fun _ h => nomatch h

theorem stops_cons {c : Char} (hdigit : c.isDigit = false) (hmem : c ∉ ['.', 'e', 'E'])
    (rest : List Char) : Stops (c :: rest) := by
  intro d hd
  obtain rfl := Option.some.inj hd
  exact ⟨by rw [hdigit]; exact Bool.false_ne_true, hmem⟩

theorem Stops.not_digit {rest : List Char} (h : Stops rest) : ∀ c ∈ rest.head?, ¬ c.isDigit :=
  fun c hc => (h c hc).1

theorem severs_nil : Severs [] := fun _ h => h

theorem severs_cons {c : Char} (hdigit : c.isDigit = false) (hmem : c ∉ ['.', 'e', 'E'])
    (cs : List Char) : Severs (c :: cs) :=
  fun rest _ => stops_cons hdigit hmem (cs ++ rest)

/-- What ends a number ends the digits in front of it and is no point. -/
theorem Stops.ends_digits {rest : List Char} (h : Stops rest) :
    ∀ c ∈ rest.head?, ¬ c.isDigit ∧ c ≠ '.' := by
  intro c hc
  obtain ⟨hdigit, hmem⟩ := h c hc
  exact ⟨hdigit, fun heq => hmem (heq ▸ List.mem_cons_self)⟩

/-- White space is passed over and belongs to no number. -/
theorem Gap.forall_mem {gap : List Char} (h : Gap gap) :
    ∀ c ∈ gap, isSpace c = true ∧ c.isDigit = false ∧ c ∉ ['.', 'e', 'E'] := by
  have hall : ∀ c ∈ [' ', '\t', '\n', '\r'],
      isSpace c = true ∧ c.isDigit = false ∧ c ∉ ['.', 'e', 'E'] := by
    simp only [List.forall_mem_cons, List.not_mem_nil, false_imp_iff, implies_true, and_true]
    decide
  exact fun c hc => hall c (h c hc)

theorem Gap.severs {gap : List Char} (h : Gap gap) : Severs gap := by
  cases gap with
  | nil => exact severs_nil
  | cons c cs =>
    obtain ⟨-, hdigit, hmem⟩ := h.forall_mem c List.mem_cons_self
    exact severs_cons hdigit hmem cs

/-! ## Putting texts together -/

theorem Lexes.append {cs ds : List Char} {front back : List Token} (hcs : Lexes cs front)
    (hsevers : Severs ds) (hds : Lexes ds back) : Lexes (cs ++ ds) (front ++ back) := by
  intro rest fuel hrest hfuel
  rw [List.append_assoc] at hfuel ⊢
  obtain ⟨middle, hmiddle, hfront⟩ := hcs (ds ++ rest) fuel (hsevers rest hrest) hfuel
  obtain ⟨left, hleft, hback⟩ := hds rest middle hrest hmiddle
  exact ⟨left, hleft, by rw [hfront, hback, List.append_assoc]⟩

theorem lexFrom_gap {gap : List Char} (h : Gap gap) (fuel : Nat) (rest : List Char) :
    lexFrom fuel (gap ++ rest) = lexFrom fuel rest := by
  cases fuel with
  | zero => rfl
  | succ fuel =>
    rw [lexFrom, lexFrom, List.dropWhile_append_of_pos fun c hc => (h.forall_mem c hc).1]

theorem Lexes.nil : Lexes [] [] := fun _ fuel _ hfuel => ⟨fuel, hfuel, rfl⟩

theorem Lexes.behind_gap {gap cs : List Char} {tokens : List Token} (hgap : Gap gap)
    (hcs : Lexes cs tokens) : Lexes (gap ++ cs) tokens := by
  intro rest fuel hrest hfuel
  rw [List.append_assoc] at hfuel ⊢
  rw [lexFrom_gap hgap]
  exact hcs rest fuel hrest (Nat.le_trans (by simp) hfuel)

theorem Gap.lexes {gap : List Char} (h : Gap gap) : Lexes gap [] :=
  List.append_nil gap ▸ Lexes.nil.behind_gap h

theorem Lexes.before_gap {gap cs : List Char} {tokens : List Token} (hcs : Lexes cs tokens)
    (hgap : Gap gap) : Lexes (cs ++ gap) tokens :=
  List.append_nil tokens ▸ hcs.append hgap.severs hgap.lexes

theorem lexFrom_token {c : Char} {rest behind : List Char} {token : Token}
    (hspace : isSpace c = false) (hscan : scanToken c rest = (token, behind)) (fuel : Nat) :
    lexFrom (fuel + 1) (c :: rest) = token :: lexFrom fuel behind := by
  rw [lexFrom, List.dropWhile_cons_of_neg (by simp [hspace])]
  simp only [hscan]

/-- A text that is scanned as one token. -/
theorem lexes_token {c : Char} {cs : List Char} {token : Token} (hspace : isSpace c = false)
    (hscan : ∀ rest, Stops rest → scanToken c (cs ++ rest) = (token, rest)) :
    Lexes (c :: cs) [token] := by
  intro rest fuel hrest hfuel
  rw [List.cons_append, List.length_cons, List.length_append] at hfuel
  obtain ⟨left, rfl⟩ : ∃ left, fuel = left + 1 := ⟨fuel - 1, by omega⟩
  exact ⟨left, by omega, lexFrom_token hspace (hscan rest hrest) left⟩

/-- A character that is a token whatever stands behind it. -/
structure Mark (c : Char) (token : Token) : Prop where
  not_space : isSpace c = false
  not_digit : c.isDigit = false
  not_joint : c ∉ ['.', 'e', 'E']
  scan : ∀ rest, scanToken c rest = (token, rest)

theorem mark_comma : Mark ',' .comma := ⟨rfl, rfl, by decide, fun _ => rfl⟩

theorem mark_colon : Mark ':' .colon := ⟨rfl, rfl, by decide, fun _ => rfl⟩

theorem mark_beginArray : Mark '[' .beginArray := ⟨rfl, rfl, by decide, fun _ => rfl⟩

theorem mark_endArray : Mark ']' .endArray := ⟨rfl, rfl, by decide, fun _ => rfl⟩

theorem mark_beginObject : Mark '\x7b' .beginObject := ⟨rfl, rfl, by decide, fun _ => rfl⟩

theorem mark_endObject : Mark '\x7d' .endObject := ⟨rfl, rfl, by decide, fun _ => rfl⟩

theorem Mark.severs {c : Char} {token : Token} (h : Mark c token) (cs : List Char) :
    Severs (c :: cs) :=
  severs_cons h.not_digit h.not_joint cs

theorem Mark.lexes_cons {c : Char} {token : Token} (h : Mark c token) {cs : List Char}
    {tokens : List Token} (hcs : Lexes cs tokens) : Lexes (c :: cs) (token :: tokens) := by
  intro rest fuel hrest hfuel
  rw [List.cons_append, List.length_cons] at hfuel
  obtain ⟨next, rfl⟩ : ∃ next, fuel = next + 1 := ⟨fuel - 1, by omega⟩
  obtain ⟨left, hleft, hlex⟩ := hcs rest next hrest (by omega)
  refine ⟨left, hleft, ?_⟩
  rw [List.cons_append, lexFrom_token h.not_space (h.scan _), hlex, List.cons_append]

/-- Two texts with a mark between them. -/
theorem Lexes.joined {c : Char} {token : Token} (h : Mark c token) {cs ds : List Char}
    {front back : List Token} (hcs : Lexes cs front) (hds : Lexes ds back) :
    Lexes (cs ++ c :: ds) (front ++ token :: back) :=
  hcs.append (h.severs ds) (h.lexes_cons hds)

/-- A text in brackets. -/
theorem Lexes.enclosed {c d : Char} {opening closing : Token} (hopening : Mark c opening)
    (hclosing : Mark d closing) {cs : List Char} {tokens : List Token} (h : Lexes cs tokens) :
    Lexes (c :: (cs ++ [d])) (opening :: (tokens ++ [closing])) :=
  hopening.lexes_cons (h.joined hclosing .nil)

/-- A text is cut into its tokens if nothing stands behind it. -/
theorem Lexes.lex_eq {cs : List Char} {tokens : List Token} (h : Lexes cs tokens) :
    lex cs = tokens := by
  obtain ⟨left, -, hlex⟩ := h [] cs.length stops_nil (by simp)
  have hend : lexFrom left [] = [] := by cases left <;> rfl
  rwa [hend, List.append_nil, List.append_nil] at hlex

/-! ## Strings -/

theorem hexDigit?_of_digitValue {c : Char} {d : Nat} (h : Numeral.digitValue c = some d)
    (hd : d < 16) : hexDigit? c = some d := by
  have hcodes : hexDigit? c =
      if 48 ≤ c.toNat ∧ c.toNat ≤ 57 then some (c.toNat - 48)
      else if 97 ≤ c.toNat ∧ c.toNat ≤ 102 then some (c.toNat - 97 + 10)
      else if 65 ≤ c.toNat ∧ c.toNat ≤ 70 then some (c.toNat - 65 + 10)
      else none := rfl
  rw [Numeral.digitValue_eq] at h
  rw [hcodes]
  split at h
  · rw [if_pos ‹_›, h]
  split at h
  · have hvalue := Option.some.inj h
    rw [if_neg ‹_›, if_pos (by omega), h]
  split at h
  · have hvalue := Option.some.inj h
    rw [if_neg ‹_›, if_neg (by omega), if_pos (by omega), h]
  · cases h

/-- Four digits of either case give the code unit that they spell. -/
theorem codeUnit?_of_upper {digits : List Char} {code : Nat} (hcode : code < 0x10000)
    (h : digits.map Char.toUpper = Numeral.hexDigits 4 code) :
    ∃ a b c d, digits = [a, b, c, d] ∧ codeUnit? a b c d = some code := by
  have hdigit : ∀ {c : Char} {n : Nat}, c.toUpper = Numeral.upperDigit (n % 16) →
      hexDigit? c = some (n % 16) := by
    intro c n hc
    have hlt : n % 16 < 16 := Nat.mod_lt n (by decide)
    refine hexDigit?_of_digitValue ?_ hlt
    rw [← Numeral.digitValue_toUpper, hc, Numeral.digitValue_upperDigit hlt]
  match digits, h with
  | [a, b, c, d], h =>
    simp only [Numeral.hexDigits, List.map_cons, List.map_nil, List.nil_append, List.cons_append,
      List.cons.injEq, and_true] at h
    obtain ⟨ha, hb, hc, hd⟩ := h
    refine ⟨a, b, c, d, rfl, ?_⟩
    simp only [codeUnit?, hdigit ha, hdigit hb, hdigit hc, hdigit hd]
    exact congrArg some (by omega)
  | [], h | [_], h | [_, _], h | [_, _, _], h | _ :: _ :: _ :: _ :: _ :: _, h =>
    simp [Numeral.hexDigits] at h

theorem shortEscape?_of_mem {e c : Char} (h : (e, c) ∈ shortEscapes) :
    e ≠ 'u' ∧ shortEscape? e = some c := by
  have hall : ∀ p ∈ shortEscapes, p.1 ≠ 'u' ∧ shortEscape? p.1 = some p.2 := by decide
  exact hall _ h

/-- A string is scanned letter by letter. -/
theorem scanString_letter {cs : List Char} {piece : Piece} (h : Letter cs piece)
    (rest : List Char) : scanString (cs ++ rest) = (scanString rest).cons piece := by
  cases h with
  | @plain c printable not_quote not_backslash =>
    have hescape : ∀ {p : Prop}, c = '\\' → p := fun heq => absurd heq not_backslash
    show scanString (c :: rest) = _
    rw [scanString, if_neg (by omega)]
    · exact not_quote
    · exact hescape
    · exact fun _ _ _ _ _ => hescape
    · exact fun _ => hescape
    · exact fun _ _ => hescape
  | @short e c mem =>
    obtain ⟨hne, hescape⟩ := shortEscape?_of_mem mem
    show scanString ('\\' :: e :: rest) = _
    rw [scanString, hescape]
    · exact fun _ _ _ _ _ heq => absurd heq hne
    · exact hne
  | unit code_lt upper_eq =>
    obtain ⟨a, b, c, d, rfl, hcode⟩ := codeUnit?_of_upper code_lt upper_eq
    show scanString ('\\' :: 'u' :: a :: b :: c :: d :: rest) = _
    rw [scanString, hcode]

theorem scanString_letters {cs : List Char} {pieces : List Piece} (h : Letters cs pieces)
    (rest : List Char) : scanString (cs ++ '"' :: rest) = { pieces, rest } := by
  induction h with
  | nil => rfl
  | cons head _ ih =>
    rw [List.append_assoc, scanString_letter head, ih]
    rfl

theorem Letters.lexes {cs : List Char} {pieces : List Piece} (h : Letters cs pieces) :
    Lexes ('"' :: (cs ++ ['"'])) [.string pieces none] := by
  refine lexes_token rfl fun rest _ => ?_
  rw [List.append_assoc, List.singleton_append]
  show (Token.string _ _, _) = _
  rw [scanString_letters h]

/-- A code unit outside the surrogates is a character. -/
theorem decodePieces_unit (fault : Option Fault) {code : Nat}
    (h : code < 0xD800 ∨ 0xDFFF < code) (rest : List Piece) :
    decodePieces fault (.unit code :: rest) =
      (decodePieces fault rest).map (Char.ofNat code :: ·) := by
  rw [decodePieces.eq_def]
  dsimp only
  rw [if_neg (by omega), if_neg (by omega)]

/-- The pieces of a text make the text. -/
theorem decodePieces_of_denotes {pieces : List Piece} {cs : List Char} (h : Denotes pieces cs) :
    decodePieces none pieces = .ok cs := by
  induction h with
  | nil => rfl
  | character c _ ih =>
    rw [decodePieces, ih]
    rfl
  | units c _ ih =>
    -- The code of a character is no surrogate, so one unit is taken for a character
    -- and two for the halves of one.
    have hvalid : c.toNat < 0xD800 ∨ 0xDFFF < c.toNat ∧ c.toNat < 0x110000 := c.valid
    unfold codeUnits
    split
    · rw [List.map_singleton, List.singleton_append, decodePieces_unit none (by omega), ih,
        Char.ofNat_toNat]
      rfl
    · have hpair : 0x10000 + (0xD800 + (c.toNat - 0x10000) / 0x400 - 0xD800) * 0x400 +
          (0xDC00 + (c.toNat - 0x10000) % 0x400 - 0xDC00) = c.toNat := by omega
      simp only [List.map_cons, List.map_nil, List.cons_append, List.nil_append]
      rw [decodePieces, if_neg (by omega), if_pos (by omega)]
      dsimp only
      rw [if_pos (by omega), hpair, ih, Char.ofNat_toNat]
      rfl

/-! ## Numbers -/

theorem digit?_eq (c : Char) :
    digit? c = if c.isDigit then some (c.toNat - '0'.toNat) else none := by
  have hiff : ('0' ≤ c ∧ c ≤ '9') ↔ c.isDigit = true := by
    rw [Char.isDigit, Bool.and_eq_true, decide_eq_true_iff, decide_eq_true_iff]
    rfl
  rw [digit?]
  simp only [hiff]

theorem scanDigits_append {cs rest : List Char} (hcs : ∀ c ∈ cs, c.isDigit)
    (hrest : ∀ c ∈ rest.head?, ¬ c.isDigit) :
    scanDigits (cs ++ rest) = (cs.filterMap digit?, rest) := by
  induction cs with
  | nil =>
    cases rest with
    | nil => rfl
    | cons c rest => rw [List.nil_append, scanDigits, digit?_eq, if_neg (hrest c rfl)]; rfl
  | cons c cs ih =>
    rw [List.forall_mem_cons] at hcs
    have hdigit : digit? c = some (c.toNat - '0'.toNat) := by rw [digit?_eq, if_pos hcs.1]
    rw [List.cons_append, scanDigits, hdigit, ih hcs.2, List.filterMap_cons, hdigit]

theorem Digits.filterMap_ne_nil {cs : List Char} (h : Digits cs) : cs.filterMap digit? ≠ [] := by
  obtain ⟨hne, hall⟩ := h
  cases cs with
  | nil => exact absurd rfl hne
  | cons c cs =>
    rw [List.filterMap_cons, digit?_eq, if_pos (hall c List.mem_cons_self)]
    exact List.cons_ne_nil _ _

theorem Whole.no_leading_zero {cs : List Char} (h : Whole cs) (d : Nat) (ds : List Nat) :
    cs.filterMap digit? ≠ 0 :: d :: ds := by
  obtain ⟨⟨hne, hall⟩, hzero⟩ := h
  cases cs with
  | nil => exact absurd rfl hne
  | cons c cs =>
    have hc := hall c List.mem_cons_self
    rw [List.filterMap_cons, digit?_eq, if_pos hc]
    intro heq
    obtain ⟨hvalue, htail⟩ := List.cons.inj heq
    have hc : c = '0' := by
      have hle : '0'.toNat ≤ c.toNat := by
        rw [Char.isDigit, Bool.and_eq_true, decide_eq_true_iff, decide_eq_true_iff] at hc
        exact hc.1
      exact Char.toNat_inj.1 (by omega)
    rw [hc] at hzero
    obtain rfl := (List.cons.inj (hzero rfl)).2
    cases htail

/-- An exponent has a value, whatever stands behind it. -/
theorem scanExponent_append {sign digits : List Char} (hsign : sign ∈ [[], ['+'], ['-']])
    (hdigits : Digits digits) :
    ∃ value, ∀ rest : List Char, (∀ c ∈ rest.head?, ¬ c.isDigit) →
      scanExponent (sign ++ (digits ++ rest)) = (some value, rest) := by
  obtain ⟨d, ds, hvalues⟩ := List.exists_cons_of_ne_nil hdigits.filterMap_ne_nil
  have hscan : ∀ rest : List Char, (∀ c ∈ rest.head?, ¬ c.isDigit) →
      scanDigits (digits ++ rest) = (d :: ds, rest) :=
    fun rest hrest => hvalues ▸ scanDigits_append hdigits.isDigit hrest
  simp only [List.mem_cons, List.not_mem_nil, or_false] at hsign
  obtain rfl | rfl | rfl := hsign
  · obtain ⟨c, cs, rfl⟩ := List.exists_cons_of_ne_nil hdigits.ne_nil
    have hunsigned : ∀ sign : Char, sign.isDigit = false → ∀ rest behind,
        c :: (cs ++ rest) = sign :: behind → False := by
      intro sign hsign rest behind heq
      obtain ⟨rfl, -⟩ := List.cons.inj heq
      exact Bool.false_ne_true (hsign.symm.trans (hdigits.isDigit c List.mem_cons_self))
    refine ⟨1 * decimalValue (d :: ds), fun rest hrest => ?_⟩
    have hdigits := hscan rest hrest
    rw [List.cons_append] at hdigits
    rw [List.nil_append, List.cons_append, scanExponent, hdigits]
    · exact hunsigned '-' rfl rest
    · exact hunsigned '+' rfl rest
  · refine ⟨1 * decimalValue (d :: ds), fun rest hrest => ?_⟩
    rw [List.singleton_append, scanExponent, hscan rest hrest]
  · refine ⟨-1 * decimalValue (d :: ds), fun rest hrest => ?_⟩
    rw [List.singleton_append, scanExponent, hscan rest hrest]

theorem finishNumber_of_stops (n : Numeral) {rest : List Char} (hrest : Stops rest) :
    finishNumber n rest = (.number n, rest) := by
  unfold finishNumber
  split
  · exact absurd (by decide) (hrest _ rfl).2
  · exact absurd (by decide) (hrest _ rfl).2
  · rfl

theorem finishNumber_exponent {exponent : List Char} (hexponent : Exponent exponent) :
    ∃ value, ∀ (n : Numeral) (rest : List Char), n.exponent = none → Stops rest →
      finishNumber n (exponent ++ rest) = (.number { n with exponent := value }, rest) := by
  cases hexponent with
  | none =>
    refine ⟨none, fun n rest hn hrest => ?_⟩
    rw [← hn]
    exact finishNumber_of_stops n hrest
  | @some e sign digits letter sign_mem isDigits =>
    obtain ⟨value, hscan⟩ := scanExponent_append sign_mem isDigits
    simp only [List.mem_cons, List.not_mem_nil, or_false] at letter
    refine ⟨some value, fun n rest _ hrest => ?_⟩
    have hrest := hscan rest hrest.not_digit
    obtain rfl | rfl := letter <;>
      simp only [List.cons_append, List.append_assoc, finishNumber, hrest]

/-- What may stand behind the digits of a fraction ends them and is no
second point. -/
theorem Exponent.ends_digits {exponent rest : List Char} (h : Exponent exponent)
    (hrest : Stops rest) : ∀ c ∈ (exponent ++ rest).head?, ¬ c.isDigit ∧ c ≠ '.' := by
  have hall : ∀ c ∈ ['e', 'E'], ¬ c.isDigit ∧ c ≠ '.' := by
    simp only [List.forall_mem_cons, List.not_mem_nil, false_imp_iff, implies_true, and_true]
    decide
  cases h with
  | none => exact hrest.ends_digits
  | some letter =>
    intro c hc
    obtain rfl := Option.some.inj hc
    exact hall _ letter

/-- The digits of the whole part are scanned.  What stands behind them decides
how to go on: a point has a fraction behind it. -/
theorem scanNumber_eq (negative : Bool) {whole : List Char} (hwhole : Whole whole)
    (rest : List Char) : (∀ c ∈ rest.head?, ¬ c.isDigit) →
    scanNumber negative (whole ++ rest) =
      match rest with
      | '.' :: behind =>
        match scanDigits behind with
        | ([], rest) => lackingDigit rest
        | (fraction, rest) =>
          finishNumber { negative, whole := whole.filterMap digit?, fraction } rest
      | rest => finishNumber { negative, whole := whole.filterMap digit? } rest := by
  intro hrest
  rw [scanNumber, scanDigits_append hwhole.isDigit hrest]
  split
  -- A whole part has a digit and no zero in front, so the scan does not stop at it.
  · rename_i heq
    exact absurd (congrArg Prod.fst heq) hwhole.filterMap_ne_nil
  · rename_i heq
    exact absurd (congrArg Prod.fst heq) (hwhole.no_leading_zero _ _)
  · rename_i heq
    obtain ⟨rfl, rfl⟩ := Prod.mk.inj heq
    rfl
  · rename_i hother heq
    obtain ⟨rfl, rfl⟩ := Prod.mk.inj heq
    split
    · exact (hother _ rfl).elim
    · rfl

theorem scanNumber_whole (negative : Bool) {whole rest : List Char} (hwhole : Whole whole)
    (hrest : ∀ c ∈ rest.head?, ¬ c.isDigit ∧ c ≠ '.') :
    scanNumber negative (whole ++ rest) =
      finishNumber { negative, whole := whole.filterMap digit? } rest := by
  rw [scanNumber_eq negative hwhole rest fun c hc => (hrest c hc).1]
  split
  · exact absurd rfl (hrest _ rfl).2
  · rfl

theorem scanNumber_fraction (negative : Bool) {whole digits rest : List Char}
    (hwhole : Whole whole) (hdigits : Digits digits) (hrest : ∀ c ∈ rest.head?, ¬ c.isDigit) :
    scanNumber negative (whole ++ '.' :: (digits ++ rest)) =
      finishNumber { negative, whole := whole.filterMap digit?,
                     fraction := digits.filterMap digit? } rest := by
  have hpoint : ∀ c ∈ ('.' :: (digits ++ rest)).head?, ¬ c.isDigit := by
    intro c hc
    obtain rfl := Option.some.inj hc
    decide
  rw [scanNumber_eq negative hwhole _ hpoint]
  simp only [scanDigits_append hdigits.isDigit hrest]
  split
  · rename_i heq
    exact absurd (congrArg Prod.fst heq) hdigits.filterMap_ne_nil
  · rename_i heq
    obtain ⟨rfl, rfl⟩ := Prod.mk.inj heq
    rfl

/-- A number behind its sign is one token. -/
theorem scanNumber_append (negative : Bool) {whole fraction exponent : List Char}
    (hwhole : Whole whole) (hfraction : Fraction fraction) (hexponent : Exponent exponent) :
    ∃ n, ∀ rest, Stops rest →
      scanNumber negative (whole ++ (fraction ++ exponent) ++ rest) = (.number n, rest) := by
  obtain ⟨value, hfinish⟩ := finishNumber_exponent hexponent
  cases hfraction with
  | none =>
    refine ⟨{ negative, whole := whole.filterMap digit?, exponent := value }, fun rest hrest => ?_⟩
    rw [List.nil_append, List.append_assoc,
      scanNumber_whole negative hwhole (hexponent.ends_digits hrest)]
    exact hfinish _ rest rfl hrest
  | @some digits isDigits =>
    refine ⟨{ negative, whole := whole.filterMap digit?, fraction := digits.filterMap digit?,
              exponent := value }, fun rest hrest => ?_⟩
    have hends := hexponent.ends_digits hrest
    rw [List.append_assoc, List.cons_append, List.cons_append, List.append_assoc,
      scanNumber_fraction negative hwhole isDigits fun c hc => (hends c hc).1]
    exact hfinish _ rest rfl hrest

/-- A digit begins a number. -/
theorem scanToken_digit {c : Char} (hc : c.isDigit) (rest : List Char) :
    isSpace c = false ∧ scanToken c rest = scanNumber false (c :: rest) := by
  have hne : ∀ mark : Char, mark.isDigit = false → c ≠ mark := fun mark hmark heq =>
    Bool.false_ne_true ((heq ▸ hmark).symm.trans hc)
  constructor
  · simp [isSpace, hne ' ' rfl, hne '\t' rfl, hne '\n' rfl, hne '\r' rfl]
  · rw [scanToken, if_neg (hne _ rfl), if_neg (hne _ rfl), if_neg (hne _ rfl), if_neg (hne _ rfl),
      if_neg (hne _ rfl), if_neg (hne _ rfl), if_neg (hne _ rfl), if_neg (hne _ rfl), if_pos]
    rw [digit?_eq, if_pos hc]
    rfl

/-- A number without a sign is scanned from its first digit on. -/
theorem Whole.lexes_of_scan {whole behind : List Char} {token : Token} (h : Whole whole)
    (hscan : ∀ rest, Stops rest → scanNumber false (whole ++ behind ++ rest) = (token, rest)) :
    Lexes (whole ++ behind) [token] := by
  obtain ⟨c, tail, rfl⟩ := List.exists_cons_of_ne_nil h.ne_nil
  have hc := h.isDigit c List.mem_cons_self
  refine lexes_token (scanToken_digit hc []).1 fun rest hrest => ?_
  rw [(scanToken_digit hc _).2]
  exact hscan rest hrest

/-- The token of a whole number keeps its digits. -/
theorem Whole.lexes {cs : List Char} (h : Whole cs) :
    Lexes cs [.number { whole := cs.filterMap digit? }] := by
  rw [← List.append_nil cs]
  refine h.lexes_of_scan fun rest hrest => ?_
  rw [List.append_nil, scanNumber_whole false h hrest.ends_digits]
  exact finishNumber_of_stops _ hrest

theorem Number.lexes {cs : List Char} (h : Number cs) : ∃ n, Lexes cs [.number n] := by
  cases h with
  | @mk sign whole fraction exponent sign_mem isWhole isFraction isExponent =>
    simp only [List.mem_cons, List.not_mem_nil, or_false] at sign_mem
    obtain rfl | rfl := sign_mem
    · obtain ⟨n, hscan⟩ := scanNumber_append false isWhole isFraction isExponent
      exact ⟨n, isWhole.lexes_of_scan hscan⟩
    · obtain ⟨n, hscan⟩ := scanNumber_append true isWhole isFraction isExponent
      exact ⟨n, lexes_token rfl hscan⟩

/-! ## Words -/

theorem scanWord_append (token : Token) (letters rest : List Char) :
    scanWord token letters (letters ++ rest) = (token, rest) := by
  induction letters with
  | nil => rfl
  | cons c cs ih => rw [List.cons_append, scanWord, if_pos rfl, ih]

theorem lexes_null : Lexes "null".toList [.null] :=
  lexes_token rfl fun rest _ => scanWord_append .null "ull".toList rest

theorem lexes_true : Lexes "true".toList [.bool true] :=
  lexes_token rfl fun rest _ => scanWord_append (.bool true) "rue".toList rest

theorem lexes_false : Lexes "false".toList [.bool false] :=
  lexes_token rfl fun rest _ => scanWord_append (.bool false) "alse".toList rest

end Monitor68.Json
