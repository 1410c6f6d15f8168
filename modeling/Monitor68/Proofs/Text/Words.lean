import Monitor68.Text.Blank

/-!
# Texts put together from words and gaps

A gap is a run of white space, and a word is a text without any.  What was
put together from words with gaps between them is cut into the same words
again, whatever white space the gaps consist of, and gaps around a text
are trimmed off.
-/

namespace Monitor68.Text

/-- A run of white space, which may be empty. -/
def IsGap (cs : List Char) : Prop := ∀ c ∈ cs, isBlank c = true

/-- A text that is not empty and has no white space in it. -/
structure IsWord (cs : List Char) : Prop where
  ne_nil : cs ≠ []
  solid : ∀ c ∈ cs, isBlank c = false

/-- A text that ends the word in front of it: nothing, or white space and
anything after that. -/
def EndsWord (cs : List Char) : Prop := ∀ c ∈ cs.head?, isBlank c = true

theorem IsGap.endsWord_append {gap : List Char} (h : IsGap gap) (hne : gap ≠ [])
    (rest : List Char) : EndsWord (gap ++ rest) := by
  obtain ⟨c, cs, rfl⟩ := List.exists_cons_of_ne_nil hne
  intro d hd
  cases hd
  exact h c List.mem_cons_self

/-- No white space stands in a word. -/
theorem IsWord.not_mem {word : List Char} (h : IsWord word) {c : Char} (hc : isBlank c = true) :
    c ∉ word := by
  intro hmem
  rw [h.solid c hmem] at hc
  cases hc

/-- The last element of a list is in its back part. -/
theorem getLast?_append_ne {α : Type} (front : List α) {back : List α} (hne : back ≠ []) {a : α}
    (h : a ∉ back) : (front ++ back).getLast? ≠ some a := by
  intro hlast
  rw [List.getLast?_append, Option.or_eq_some_iff] at hlast
  obtain hlast | ⟨hempty, -⟩ := hlast
  · exact h (List.mem_of_getLast? hlast)
  · exact hne (List.getLast?_eq_none_iff.1 hempty)

/-- A text that ends with a word does not end with white space. -/
theorem IsWord.getLast?_append_ne {word : List Char} (h : IsWord word) (front : List Char)
    {c : Char} (hc : isBlank c = true) : (front ++ word).getLast? ≠ some c :=
  Text.getLast?_append_ne front h.ne_nil (h.not_mem hc)

/-! ## Trimming -/

/-- White space in front is dropped. -/
theorem trimLeft_gap_append {gap : List Char} (h : IsGap gap) (cs : List Char) :
    trimLeft (gap ++ cs) = trimLeft cs :=
  List.dropWhile_append_of_pos h

/-- A text that does not begin with white space stays. -/
theorem trimLeft_of_head {cs : List Char} (h : ∀ c ∈ cs.head?, isBlank c = false) :
    trimLeft cs = cs := by
  cases cs with
  | nil => rfl
  | cons c rest => exact List.dropWhile_cons_of_neg (by simp [h c rfl])

/-- White space at the end is dropped from a text that does not end with white
space. -/
theorem trimRight_append_gap {cs gap : List Char} (h : IsGap gap)
    (hlast : ∀ c ∈ cs.getLast?, isBlank c = false) : trimRight (cs ++ gap) = cs := by
  have hgap : IsGap gap.reverse := fun c hc => h c (List.mem_reverse.1 hc)
  have hhead : ∀ c ∈ cs.reverse.head?, isBlank c = false := by
    rw [List.head?_reverse]
    exact hlast
  rw [trimRight, List.reverse_append]
  show (trimLeft (gap.reverse ++ cs.reverse)).reverse = cs
  rw [trimLeft_gap_append hgap, trimLeft_of_head hhead, List.reverse_reverse]

/-- A text that neither begins nor ends with white space is what trimming
leaves of it between two gaps. -/
theorem trim_between {before cs after : List Char} (hbefore : IsGap before)
    (hafter : IsGap after) (hfirst : ∀ c ∈ cs.head?, isBlank c = false)
    (hlast : ∀ c ∈ cs.getLast?, isBlank c = false) : trim (before ++ cs ++ after) = cs := by
  rw [trim, List.append_assoc, trimLeft_gap_append hbefore]
  cases hcs : cs with
  | nil =>
    have hafter' : trimLeft after = [] := by
      rw [← List.append_nil after]
      exact trimLeft_gap_append hafter []
    rw [List.nil_append, hafter']
    rfl
  | cons c rest =>
    rw [← hcs, trimLeft_of_head, trimRight_append_gap hafter hlast]
    rw [hcs] at hfirst ⊢
    exact hfirst

/-- Trimming takes a gap off each end. -/
theorem exists_gaps (cs : List Char) :
    ∃ before after, IsGap before ∧ IsGap after ∧ cs = before ++ trim cs ++ after := by
  have hrest := List.takeWhile_append_dropWhile (p := isBlank) (l := (trimLeft cs).reverse)
  have hleft : trimLeft cs = trim cs ++ ((trimLeft cs).reverse.takeWhile isBlank).reverse := by
    rw [trim, trimRight, ← List.reverse_append, hrest, List.reverse_reverse]
  refine ⟨cs.takeWhile isBlank, ((trimLeft cs).reverse.takeWhile isBlank).reverse,
    List.all_eq_true.1 List.all_takeWhile,
    fun c hc => List.all_eq_true.1 List.all_takeWhile c (List.mem_reverse.1 hc), ?_⟩
  rw [List.append_assoc, ← hleft]
  exact List.takeWhile_append_dropWhile.symm

/-- A word is what trimming leaves of it between two gaps. -/
theorem trim_word {before word after : List Char} (hbefore : IsGap before) (hafter : IsGap after)
    (hword : IsWord word) : trim (before ++ word ++ after) = word :=
  trim_between hbefore hafter (fun c hc => hword.solid c (List.mem_of_mem_head? hc))
    fun c hc => hword.solid c (List.mem_of_getLast? hc)

/-! ## Cutting into words -/

/-- White space in front of a text adds no word. -/
theorem words_gap_append {gap : List Char} (h : IsGap gap) (cs : List Char) :
    words (gap ++ cs) = words cs := by
  rw [words, words, trimLeft_gap_append h]

theorem words_nil : words [] = [] := by
  rw [words]
  rfl

/-- No word is empty. -/
theorem ne_nil_of_mem_words {cs word : List Char} (h : word ∈ words cs) : word ≠ [] := by
  fun_induction words cs with
  | case1 => cases h
  | case2 _ c rest _ ih =>
    obtain rfl | hrest := List.mem_cons.1 h
    · exact List.cons_ne_nil _ _
    · exact ih hrest

/-- A word in front of a text that ends it is the first of its words. -/
theorem words_word_append {word rest : List Char} (hword : IsWord word)
    (hrest : EndsWord rest) : words (word ++ rest) = word :: words rest := by
  obtain ⟨c, cs, rfl⟩ := List.exists_cons_of_ne_nil hword.ne_nil
  have hleft : trimLeft (c :: cs ++ rest) = c :: (cs ++ rest) :=
    trimLeft_of_head fun d hd => by
      cases hd
      exact hword.solid c List.mem_cons_self
  have hsolid : ∀ d ∈ cs, (!isBlank d) = true := fun d hd => by
    simp [hword.solid d (List.mem_cons_of_mem c hd)]
  have htake : rest.takeWhile (!isBlank ·) = [] := by
    cases rest with
    | nil => rfl
    | cons d ds => exact List.takeWhile_cons_of_neg (by simp [hrest d rfl])
  have hdrop : rest.dropWhile (!isBlank ·) = rest := by
    cases rest with
    | nil => rfl
    | cons d ds => exact List.dropWhile_cons_of_neg (by simp [hrest d rfl])
  rw [words]
  split
  · rename_i hnil
    rw [hleft] at hnil
    cases hnil
  · rename_i d ds hcons
    rw [hleft] at hcons
    cases hcons
    rw [List.takeWhile_append_of_pos hsolid, List.dropWhile_append_of_pos hsolid, htake, hdrop,
      List.append_nil]

end Monitor68.Text
