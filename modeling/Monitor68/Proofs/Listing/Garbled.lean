import Monitor68.Proofs.Listing.Continuing

/-!
# Listings with lines that are no text

A line of a listing that says nothing is passed over, but a line that is no
text ends the reading, and nobody is told.  What the lines behind it would
say is missed.  `listing_of_readable_part` compares the listing that is read
with the one of the same file without its garbled lines: the two differ by
what is missed, and they are the same exactly if the lines in front of the
first garbled one say all of that already.
-/

namespace Monitor68.Listing

open Monitor68.Text

theorem texts_filter_isText (raws : List (List UInt8)) :
    texts (raws.filter isText) = texts raws := by
  rw [texts, List.filterMap_filter]
  refine congrArg (List.filterMap · raws) (funext fun raw => ?_)
  unfold isText
  cases textOf raw <;> rfl

/-- A file without its garbled lines is read to its end. -/
theorem ofBytes_onlyText (bytes : List UInt8) :
    ofBytes (onlyText bytes) = ofLines (texts (rawLines bytes)) := by
  have hall : ∀ raw ∈ (rawLines bytes).filter isText, isText raw = true :=
    fun raw hraw => (List.mem_filter.1 hraw).2
  rw [ofBytes_eq, rawLines_onlyText, List.takeWhile_eq_self_iff.2 hall, texts_filter_isText]

/-- A listing is read up to its first garbled line.  The one of the same file
without its garbled lines has over it what the lines behind that line say to a
reader that goes on there.  So garbled lines do no harm exactly if all of that
was said before. -/
theorem listing_of_readable_part (bytes : List UInt8) :
    let front := (rawLines bytes).takeWhile isText
    let back := (rawLines bytes).dropWhile isText
    let missed := readFrom (modeAfter (texts front)) (texts back)
    ofBytes bytes = ofBytes front.flatten ∧
    ofBytes (onlyText bytes) = (ofBytes bytes).overlay missed ∧
    (ofBytes bytes = ofBytes (onlyText bytes) ↔ missed.Within (ofBytes bytes)) := by
  intro front back missed
  have hread : ofBytes bytes = ofLines (texts front) := ofBytes_eq bytes
  have hfront : ofBytes front.flatten = ofLines (texts front) := by
    have hcut : IsCut front := (isCut_rawLines bytes).sublist (List.takeWhile_sublist isText)
    have hall : ∀ raw ∈ front, isText raw = true := fun raw hraw => List.mem_takeWhile_imp hraw
    rw [ofBytes_flatten hcut, List.takeWhile_eq_self_iff.2 hall]
  have hsplit : texts (rawLines bytes) = texts front ++ texts back := by
    have hraws : front ++ back = rawLines bytes := List.takeWhile_append_dropWhile
    rw [← hraws]
    exact List.filterMap_append
  have hclean : ofBytes (onlyText bytes) = (ofBytes bytes).overlay missed := by
    rw [ofBytes_onlyText, hsplit, ofLines_append, hread]
  refine ⟨hread.trans hfront.symm, hclean, ?_⟩
  rw [hclean, eq_comm]
  exact overlay_eq_iff (ofBytes bytes) missed

/-- Two code lines with a line between them that is no text. -/
def garbled : List UInt8 :=
  encodeUtf8 "00:00008000 4E71 4:\n".toList ++ [0xFF, lineFeed] ++
    encodeUtf8 "00:00008002 4E71 5:\n".toList

/-- A line that is no text is not passed over: the line behind it is missed. -/
theorem garbled_line_hides_next :
    ¬ ∀ bytes : List UInt8, ofBytes bytes = ofBytes (onlyText bytes) := by
  intro h
  have hread : (ofBytes garbled).lineFor 0x8002 = none := by decide +kernel
  have hclean : (ofBytes (onlyText garbled)).lineFor 0x8002 = some 5 := by decide +kernel
  rw [h garbled, hclean] at hread
  cases hread

end Monitor68.Listing
