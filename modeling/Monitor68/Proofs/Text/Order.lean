import Monitor68.Proofs.Text.Lines

/-!
# The order of texts and of their bytes

The first byte of a character tells how many bytes it has, and it is the
greater the more there are.  Behind that the digits of the code come from the
upper to the lower ones.  So the encodings of texts, byte by byte, are in the
order of the texts, character by character.
-/

namespace Monitor68.Text

/-- The lesser of two characters has the lesser bytes, whatever comes behind
them. -/
theorem utf8EncodeChar_append_lt {c d : Char} (h : c < d) (xs ys : List UInt8) :
    String.utf8EncodeChar c ++ xs < String.utf8EncodeChar d ++ ys := by
  have hcd : c.toNat < d.toNat := h
  have hbyte : ∀ n < 256, (UInt8.ofNat n).toNat = n := fun n hn => UInt8.toNat_ofNat_of_lt' hn
  -- Characters of unequal numbers of bytes are told apart by the first byte alone.
  rcases utf8EncodeChar_cases c with ⟨hc, hbytes⟩ | ⟨_, hc, hbytes⟩ | ⟨_, hc, hbytes⟩ |
      ⟨_, hc, hbytes⟩ <;>
    rcases utf8EncodeChar_cases d with ⟨hd, hbytes'⟩ | ⟨_, hd, hbytes'⟩ | ⟨_, hd, hbytes'⟩ |
      ⟨_, hd, hbytes'⟩ <;>
    simp (disch := omega) only [hbytes, hbytes', List.cons_append, List.nil_append,
      List.cons_lt_cons_iff, UInt8.lt_iff_toNat_lt, ← UInt8.toNat_inj, hbyte] <;>
    omega

/-- Texts are ordered as their encodings are. -/
theorem encodeUtf8_lt {cs ds : List Char} (h : cs < ds) : encodeUtf8 cs < encodeUtf8 ds := by
  induction cs generalizing ds with
  | nil =>
    cases ds with
    | nil => exact absurd h (List.lt_irrefl _)
    | cons d ds =>
      obtain ⟨b, bs, hbytes⟩ := List.exists_cons_of_ne_nil (String.utf8EncodeChar_ne_nil (c := d))
      rw [encodeUtf8, encodeUtf8, List.flatMap_cons, hbytes]
      exact List.nil_lt_cons _ _
  | cons c cs ih =>
    cases ds with
    | nil => exact absurd h (List.not_lt_nil _)
    | cons d ds =>
      rw [encodeUtf8, encodeUtf8, List.flatMap_cons, List.flatMap_cons]
      obtain hlt | ⟨rfl, hrest⟩ := List.cons_lt_cons_iff.1 h
      · exact utf8EncodeChar_append_lt hlt _ _
      · exact List.append_left_lt (ih hrest)

end Monitor68.Text
