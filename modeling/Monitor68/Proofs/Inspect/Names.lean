import Monitor68.Inspect.Encoding
import Monitor68.Proofs.Bytes.Hex
import Monitor68.Proofs.Text.Words

/-!
# Names of encodings

An encoding is named by its label or by its short name, in any case of the
letters and with any white space around it.  No two encodings have a name in
common, so it does not matter in which order they are tried
(`ofName_eq_ok_iff`).
-/

namespace Monitor68.Encoding

open Text

/-- A text is the label or the short name of an encoding, but for the case of
letters of ASCII. -/
def IsName (e : Encoding) (name : List Char) : Prop :=
  ∃ given ∈ [e.label, e.shortName], name.map Char.toLower = given.toList.map Char.toLower

theorem mem_all (e : Encoding) : e ∈ all := by
  cases e with
  | number size form => cases size <;> cases form <;> decide
  | character => decide
  | string => decide

theorem isNamed_iff (e : Encoding) (name : List Char) : e.isNamed name = true ↔ e.IsName name := by
  rw [isNamed, Bool.or_eq_true, sameLetters, sameLetters, beq_iff_eq, beq_iff_eq, IsName]
  constructor
  · rintro (hlabel | hshort)
    · exact ⟨e.label, List.mem_cons_self, hlabel.symm⟩
    · exact ⟨e.shortName, by simp, hshort.symm⟩
  · rintro ⟨given, hgiven, hname⟩
    rcases List.mem_pair.1 hgiven with rfl | rfl
    · exact .inl hname.symm
    · exact .inr hname.symm

/-- No two encodings have a name in common. -/
theorem IsName.unique {e e' : Encoding} {name : List Char} (h : e.IsName name)
    (h' : e'.IsName name) : e = e' := by
  have hapart : ∀ e ∈ all, ∀ e' ∈ all, ∀ given ∈ [e.label, e.shortName],
      ∀ given' ∈ [e'.label, e'.shortName],
      given.toList.map Char.toLower = given'.toList.map Char.toLower → e = e' := by
    decide +kernel
  obtain ⟨given, hgiven, hname⟩ := h
  obtain ⟨given', hgiven', hname'⟩ := h'
  exact hapart e (mem_all e) e' (mem_all e') given hgiven given' hgiven' (hname.symm.trans hname')

/-- Letters are no white space in either case. -/
theorem isBlank_toLower (c : Char) : isBlank c.toLower = isBlank c := by
  by_cases hc : c.toNat < 128
  · revert hc
    exact Bytes.Hex.forall_char_lt (by decide +kernel) c
  · have hother : ¬ (c.val ≥ 'A'.val ∧ c.val ≤ 'Z'.val) := by
      rintro ⟨-, hle⟩
      have hcode : c.toNat ≤ 90 := hle
      omega
    have hsame : c.toLower = c := dif_neg hother
    rw [hsame]

/-- A name neither begins nor ends with white space. -/
theorem IsName.trim_between {e : Encoding} {before name after : List Char} (h : e.IsName name)
    (hbefore : IsGap before) (hafter : IsGap after) : trim (before ++ name ++ after) = name := by
  have hends : ∀ e ∈ all, ∀ given ∈ [e.label, e.shortName],
      (given.toList.map Char.toLower).head?.all (!isBlank ·) = true ∧
        (given.toList.map Char.toLower).getLast?.all (!isBlank ·) = true := by
    decide +kernel
  obtain ⟨given, hgiven, hname⟩ := h
  obtain ⟨hfirst, hlast⟩ := hends e (mem_all e) given hgiven
  rw [← hname, List.head?_map, Option.all_map, Option.all_eq_true] at hfirst
  rw [← hname, List.getLast?_map, Option.all_map, Option.all_eq_true] at hlast
  refine Text.trim_between hbefore hafter (fun c hc => ?_) fun c hc => ?_
  · simpa [isBlank_toLower] using hfirst c hc
  · simpa [isBlank_toLower] using hlast c hc

/-- The encoding of a text is the one that the text names, white space around the
name apart. -/
theorem ofName_eq_ok_iff (text : String) (e : Encoding) :
    ofName text = .ok e ↔ ∃ before name after, text.toList = before ++ name ++ after ∧
      IsGap before ∧ IsGap after ∧ e.IsName name := by
  constructor
  · intro h
    rw [ofName] at h
    cases hfind : all.find? (·.isNamed (trim text.toList)) with
    | none => rw [hfind] at h; cases h
    | some found =>
      rw [hfind] at h
      cases h
      obtain ⟨before, after, hbefore, hafter, htext⟩ := exists_gaps text.toList
      have hnamed : e.isNamed (trim text.toList) = true := by simpa using List.find?_some hfind
      exact ⟨before, _, after, htext, hbefore, hafter, (isNamed_iff _ _).1 hnamed⟩
  · rintro ⟨before, name, after, htext, hbefore, hafter, hname⟩
    rw [ofName, htext, hname.trim_between hbefore hafter]
    have hnamed := (isNamed_iff e name).2 hname
    cases hfind : all.find? (·.isNamed name) with
    | none => exact absurd hnamed (List.find?_eq_none.1 hfind e (mem_all e))
    | some found =>
      have hfound : found.isNamed name = true := by simpa using List.find?_some hfind
      exact congrArg Except.ok (((isNamed_iff found name).1 hfound).unique hname)

end Monitor68.Encoding
