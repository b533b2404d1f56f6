import SemverRange.Text.Blank

/-!
# Lines of text files

A text file is UTF-8 (`decode?`), and a line feed, a carriage return or the two together end a
line (`unifyLineEnds`, `lines`). The last line need not be ended.

Main statement: `carriageReturn_not_mem_unifyLineEnds`.
-/

namespace SemverRange.Text

/-- The text with a line feed at the end of every line. -/
def unifyLineEnds : List Char → List Char
  | [] => []
  | '\r' :: '\n' :: cs => '\n' :: unifyLineEnds cs
  | c :: cs => (if c == '\r' then '\n' else c) :: unifyLineEnds cs

theorem carriageReturn_not_mem_unifyLineEnds (cs : List Char) : '\r' ∉ unifyLineEnds cs := by
  fun_induction unifyLineEnds cs with
  | case1 => simp
  | case2 cs ih => simp [ih]
  | case3 c cs _ ih =>
    by_cases h : c = '\r'
    · simp [h, ih]
    · simp [h, ih, Ne.symm h]

/-- The text that the bytes of a file encode. -/
def decode? (bytes : ByteArray) : Option (List Char) :=
  (String.fromUTF8? bytes).map fun s => unifyLineEnds s.toList

/-- The lines of a text whose line ends are unified. -/
def lines (cs : List Char) : List (List Char) := cs.splitOn '\n'

end SemverRange.Text
