import Monitor68.Proofs.Json.Values
import Monitor68.Settings.Writer

/-!
# Objects without white space

What the writer makes of a record is one of the texts that write the
record: its members stand in the order of the fields, and their names are
spelled by themselves.
-/

namespace Monitor68.Json

open Monitor68.Text

variable {σ : Type}

theorem written_decimal (n : Nat) : WrittenNat n (Numeral.decimal n).toList :=
  String.toList_ofList

theorem written_boolText (b : Bool) : WrittenBool b (boolText b).toList := by
  cases b <;> rfl

/-- The texts are written of the entries, each of its own. -/
def WrittenAll (entries : List (Entry σ)) (values : List String) : Prop :=
  List.Forall₂ (fun e value => e.Written value.toList) entries values

/-- The members of entries whose values have the given texts. -/
def memberTexts (entries : List (Entry σ)) (values : List String) : List String :=
  List.zipWith (fun e value => memberText e.name value) entries values

/-- Members without white space give what they are written for. -/
theorem exists_members (names : List String) {entries : List (Entry σ)} {values : List String}
    (hplain : ∀ e ∈ entries, Plain e.name.toList) (h : WrittenAll entries values) :
    ∃ ms, List.Forall₂ (Member.Gives names) ms (entries.map some) ∧
      ms.map Member.text = (memberTexts entries values).map String.toList := by
  induction h with
  | nil => exact ⟨[], .nil, rfl⟩
  | @cons e value entries values hwritten _ ih =>
    rw [List.forall_mem_cons] at hplain
    obtain ⟨ms, hgives, htexts⟩ := ih hplain.2
    let m : Member :=
      { name := e.name.toList, letters := e.name.toList, value := value.toList
        spells := hplain.1.spells }
    have htext : m.text = (memberText e.name value).toList := by
      simp [m, Member.text, memberText, String.toList_append]
    refine ⟨m :: ms, .cons (.entry e rfl hwritten) hgives, ?_⟩
    rw [List.map_cons, htext, htexts, memberTexts, memberTexts, List.zipWith_cons_cons,
      List.map_cons]

theorem intercalate_comma (cs : List Char) (css : List (List Char)) :
    [','].intercalate (cs :: css) = cs ++ css.flatMap (',' :: ·) := by
  induction css generalizing cs with
  | nil => simp
  | cons ds css ih =>
    rw [List.intercalate_cons_cons, ih, List.flatMap_cons, List.append_assoc]
    rfl

/-- The object of members without white space writes what they are written
for. -/
theorem writes_objectText {fields : List (RecordField σ)} {names : List String}
    {entries : List (Entry σ)} {values : List String} (hcovers : Covers fields names entries)
    (hplain : ∀ name ∈ names, Plain name.toList) (hne : entries ≠ [])
    (h : WrittenAll entries values) :
    Writes names entries (objectText (memberTexts entries values)).toList := by
  have hnames : ∀ e ∈ entries, Plain e.name.toList := by
    intro e he
    obtain ⟨field, hfield, hreadBy⟩ := hcovers.readBy e he
    refine hplain _ ?_
    rw [← hreadBy.name_eq, ← hcovers.names_eq]
    exact List.mem_map_of_mem hfield
  obtain ⟨ms, hgives, htexts⟩ := exists_members names hnames h
  have hgiven : (entries.map some).reduceOption = entries := by
    rw [List.reduceOption, List.filterMap_map]
    exact List.filterMap_some
  cases ms with
  | nil => exact absurd (List.map_eq_nil_iff.1 (List.forall₂_nil_left_iff.1 hgives)) hne
  | cons m ms =>
    have hjoined : [','].intercalate ((m :: ms).map Member.text) =
        m.text ++ ms.flatMap fun m => ',' :: m.text := by
      rw [List.map_cons, intercalate_comma, List.flatMap_map]
    refine ⟨m :: ms, _, ?_, hgives, List.Perm.of_eq hgiven⟩
    rw [objectText, String.toList_append, String.toList_append, String.toList_intercalate,
      ← htexts]
    show ObjectOf _ ('\x7b' :: ([','].intercalate _ ++ ['\x7d']))
    rw [hjoined]
    exact .members m ms

end Monitor68.Json
