/-!
# Blank characters

**Blank** (`isBlank`). The characters that separate words: the ASCII controls that move the
print position, the four ASCII information separators, and the spaces of Unicode. A zero-width
space, a word joiner and a byte-order mark are not blank.

**Trimming** (`trimStart`, `stripBy`, `trim`) drops blanks at the ends, and **words** (`words`)
are the maximal runs of characters that are not blank.

Main statement: `ne_nil_of_mem_words`, a word is never empty.
-/

namespace SemverRange.Text

/-- Characters that separate words and are trimmed at the ends of a text. -/
def isBlank (c : Char) : Bool :=
  let n := c.toNat
  (9 ≤ n && n ≤ 13) || (28 ≤ n && n ≤ 32) || n == 0x85 || n == 0xA0 || n == 0x1680 ||
    (0x2000 ≤ n && n ≤ 0x200A) || n == 0x2028 || n == 0x2029 || n == 0x202F || n == 0x205F ||
    n == 0x3000

/-- `cs` without the blanks it starts with. -/
def trimStart (cs : List Char) : List Char := cs.dropWhile isBlank

/-- `cs` without the characters of class `p` that it starts or ends with. -/
def stripBy (p : Char → Bool) (cs : List Char) : List Char :=
  ((cs.dropWhile p).reverse.dropWhile p).reverse

/-- `cs` without the blanks at both ends. -/
def trim (cs : List Char) : List Char := stripBy isBlank cs

/-- The maximal blank-free runs of `cs`, in order. -/
def words (cs : List Char) : List (List Char) := (cs.splitOnP isBlank).filter (!·.isEmpty)

theorem ne_nil_of_mem_words {w cs : List Char} (h : w ∈ words cs) : w ≠ [] := by
  simp only [words, List.mem_filter, Bool.not_eq_true', List.isEmpty_eq_false_iff] at h
  exact h.2

end SemverRange.Text
