import Monitor68.Image

/-!
# Reading an image line by line

A line of an image is sound if it is text and either no record at all or a
proper one.  Whether a line is sound, which record it holds and what is
wrong with it are questions about that line alone; only the number in the
complaint depends on where the line stands.

`records_of_sound` and `records_of_fault` say what reading a whole image
comes to: sound lines give the records they hold in their order, and
otherwise the first line that is not sound decides.
-/

namespace Monitor68.Image

open SRecord

/-- Whether a line is text and either no record or a proper one. -/
def Sound (line : Except Files.FileError String) : Prop :=
  ∃ text record?, line = .ok text ∧ Record.parse text = .ok record?

/-- The record that a line holds. -/
def recordOf? : Except Files.FileError String → Option Record
  | .error _ => none
  | .ok text => (Record.parse text).toOption.join

/-- What is wrong with the line of the given number. -/
def faultOf? (number : Nat) : Except Files.FileError String → Option LoadError
  | .error fault => some (.file fault)
  | .ok text =>
    match Record.parse text with
    | .error error => some (.malformed number error)
    | .ok _ => none

/-! ## One line -/

/-- Exactly the lines that are not sound have something wrong with them. -/
theorem faultOf?_eq_none_iff (number : Nat) (line : Except Files.FileError String) :
    faultOf? number line = none ↔ Sound line := by
  cases line with
  | error fault => simp [faultOf?, Sound]
  | ok text => cases h : Record.parse text <;> simp [faultOf?, Sound, h]

/-- A line that is not sound has something wrong with it. -/
theorem exists_faultOf? (number : Nat) {line : Except Files.FileError String}
    (h : ¬ Sound line) : ∃ error, faultOf? number line = some error := by
  cases hf : faultOf? number line with
  | none => exact absurd ((faultOf?_eq_none_iff number line).1 hf) h
  | some error => exact ⟨error, rfl⟩

/-- A sound line adds the record it holds to those behind it. -/
theorem recordsFrom_cons_of_sound (number : Nat) {line : Except Files.FileError String}
    (rest : List (Except Files.FileError String)) (h : Sound line) :
    recordsFrom number (line :: rest) =
      (recordsFrom (number + 1) rest).map ((recordOf? line).toList ++ ·) := by
  obtain ⟨text, record?, rfl, hparse⟩ := h
  cases record? with
  | none =>
    simp only [recordsFrom, recordOf?, hparse]
    cases recordsFrom (number + 1) rest <;> rfl
  | some record =>
    simp only [recordsFrom, recordOf?, hparse]
    rfl

/-- A line with something wrong ends the reading. -/
theorem recordsFrom_cons_of_fault {number : Nat} {line : Except Files.FileError String}
    (rest : List (Except Files.FileError String)) {error : LoadError}
    (h : faultOf? number line = some error) :
    recordsFrom number (line :: rest) = .error error := by
  cases line with
  | error fault =>
    cases h
    rfl
  | ok text =>
    cases hparse : Record.parse text with
    | error format =>
      simp only [faultOf?, hparse, Option.some.injEq] at h
      subst h
      simp only [recordsFrom, hparse]
    | ok record? => simp [faultOf?, hparse] at h

/-! ## All lines -/

/-- Sound lines give the records they hold. -/
theorem recordsFrom_of_sound (number : Nat) (lines : List (Except Files.FileError String))
    (h : ∀ line ∈ lines, Sound line) :
    recordsFrom number lines = .ok (lines.filterMap recordOf?) := by
  induction lines generalizing number with
  | nil => rfl
  | cons line rest ih =>
    have hline : Sound line := h line (by simp)
    have hrest : ∀ line ∈ rest, Sound line := fun line hmem => h line (by simp [hmem])
    rw [recordsFrom_cons_of_sound number rest hline, ih _ hrest]
    cases hr : recordOf? line <;> simp [hr, Except.map]

/-- The first line with something wrong decides, whatever follows it. -/
theorem recordsFrom_of_fault (number : Nat) {before after : List (Except Files.FileError String)}
    {line : Except Files.FileError String} {error : LoadError}
    (hbefore : ∀ line ∈ before, Sound line)
    (h : faultOf? (number + before.length) line = some error) :
    recordsFrom number (before ++ line :: after) = .error error := by
  induction before generalizing number with
  | nil => exact recordsFrom_cons_of_fault after h
  | cons first rest ih =>
    have hfirst : Sound first := hbefore first (by simp)
    have hrest : ∀ line ∈ rest, Sound line := fun line hmem => hbefore line (by simp [hmem])
    have hnumber : number + 1 + rest.length = number + (first :: rest).length := by
      rw [List.length_cons]
      omega
    rw [List.cons_append, recordsFrom_cons_of_sound number _ hfirst,
      ih (number + 1) hrest (by rwa [hnumber])]
    rfl

theorem records_of_sound {lines : List (Except Files.FileError String)}
    (h : ∀ line ∈ lines, Sound line) : records lines = .ok (lines.filterMap recordOf?) :=
  recordsFrom_of_sound 1 lines h

theorem records_of_fault {before after : List (Except Files.FileError String)}
    {line : Except Files.FileError String} {error : LoadError}
    (hbefore : ∀ line ∈ before, Sound line)
    (h : faultOf? (before.length + 1) line = some error) :
    records (before ++ line :: after) = .error error :=
  recordsFrom_of_fault 1 hbefore (by rwa [Nat.add_comm])

/-! ## The first that fails -/

/-- A list with an element that fails a test has a first such element. -/
theorem exists_first {α : Type} {p : α → Prop} {xs : List α} (h : ¬ ∀ x ∈ xs, p x) :
    ∃ before x after, xs = before ++ x :: after ∧ (∀ y ∈ before, p y) ∧ ¬ p x := by
  classical
  have hsome : (xs.find? fun x => ¬ p x).isSome := by
    simpa [List.find?_isSome] using h
  obtain ⟨x, hx⟩ := Option.isSome_iff_exists.1 hsome
  obtain ⟨hfail, before, after, hxs, hbefore⟩ := List.find?_eq_some_iff_append.1 hx
  refine ⟨before, x, after, hxs, ?_, by simpa using hfail⟩
  intro y hy
  simpa using hbefore y hy

/-- Lines that are not all sound have a first one that is not, and there
something is wrong. -/
theorem exists_first_fault {lines : List (Except Files.FileError String)}
    (h : ¬ ∀ line ∈ lines, Sound line) :
    ∃ before line after error,
      lines = before ++ line :: after ∧ (∀ line ∈ before, Sound line) ∧
        faultOf? (before.length + 1) line = some error := by
  obtain ⟨before, line, after, hlines, hbefore, hline⟩ := exists_first h
  obtain ⟨error, herror⟩ := exists_faultOf? (before.length + 1) hline
  exact ⟨before, line, after, error, hlines, hbefore, herror⟩

end Monitor68.Image
