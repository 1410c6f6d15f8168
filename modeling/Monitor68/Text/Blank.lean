/-!
# White space and words

Text read from files is cut at white space, and white space here is the
whole Unicode property `White_Space`, so that a no-break space or an
ideographic space separates words as a blank does.  The zero-width space
and the byte order mark are not in the property and are ordinary
characters.

`trim` takes white space off both ends, and `words` cuts a line into its
maximal runs of other characters.
-/

namespace Monitor68.Text

/-- The characters with the Unicode property `White_Space`. -/
def isBlank (c : Char) : Bool :=
  let n := c.toNat
  (0x9 ≤ n && n ≤ 0xD) || n == 0x20 || n == 0x85 || n == 0xA0 || n == 0x1680 ||
    (0x2000 ≤ n && n ≤ 0x200A) || n == 0x2028 || n == 0x2029 || n == 0x202F ||
    n == 0x205F || n == 0x3000

def trimLeft (cs : List Char) : List Char := cs.dropWhile isBlank

def trimRight (cs : List Char) : List Char := (cs.reverse.dropWhile isBlank).reverse

def trim (cs : List Char) : List Char := trimRight (trimLeft cs)

theorem length_dropWhile_le {α : Type} (p : α → Bool) (xs : List α) :
    (xs.dropWhile p).length ≤ xs.length :=
  (List.dropWhile_suffix p).length_le

/-- The words of a line: its maximal runs of characters that are not white
space, in order. -/
def words (cs : List Char) : List (List Char) :=
  match _h : trimLeft cs with
  | [] => []
  | c :: rest =>
    (c :: rest.takeWhile (!isBlank ·)) :: words (rest.dropWhile (!isBlank ·))
termination_by cs.length
decreasing_by
  have h1 := length_dropWhile_le isBlank cs
  have h2 := length_dropWhile_le (!isBlank ·) rest
  have h3 : (trimLeft cs).length = rest.length + 1 := by rw [_h]; rfl
  unfold trimLeft at h3
  omega

end Monitor68.Text
