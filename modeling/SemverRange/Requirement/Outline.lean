import SemverRange.Error
import SemverRange.Partial.Basic

/-!
# The outline of a requirement

**The value** (`Outline`). A requirement is a list of segments separated by `||`, of which one has
to hold. A segment (`Segment`) lists its comparisons, a partial version with an operator symbol in
front or none, and its hyphen ranges; all of them have to hold.

**Reading** (`Outline.parse`). A segment is split into words at blanks. A word of operator
characters alone belongs to the next word (`glue`). Three words of which the middle one is a
hyphen are a hyphen range, any other word is a comparison: its operator is the longest run of
operator characters at the start. The outline settles the syntax alone; whether an operator
exists and a version has an acceptable shape is for later. Any error names the whole text.
-/

namespace SemverRange

/-- A partial version with the operator symbol in front of it, if any. -/
structure Comparison where
  symbol : Option String
  version : Partial
  deriving DecidableEq

/-- Two partial versions with a hyphen between them. -/
structure HyphenRange where
  low : Partial
  high : Partial
  deriving DecidableEq

/-- Conditions that have to hold together. -/
structure Segment where
  comparisons : List Comparison
  hyphenRanges : List HyphenRange
  deriving DecidableEq

/-- A requirement by its parts. -/
structure Outline where
  raw : String
  segments : List Segment
  deriving DecidableEq

/-- The characters of operator symbols. -/
def isOperatorChar (c : Char) : Bool := ['<', '>', '=', '~', '^', '!'].contains c

namespace Comparison

/-- The comparison that one word writes. -/
def read? (word : List Char) : Option Comparison :=
  let symbol := word.takeWhile isOperatorChar
  (Partial.read? (word.dropWhile isOperatorChar)).map fun version =>
    ⟨if symbol.isEmpty then none else some (String.ofList symbol), version⟩

end Comparison

namespace Segment

/-- The words, each word of operator characters alone put in front of the next one. Two such
words in a row, or one at the end, belong to nothing. -/
def glue : List (List Char) → Option (List (List Char))
  | [] => some []
  | [word] => if word.all isOperatorChar then none else some [word]
  | word :: next :: rest =>
    if word.all isOperatorChar then
      if next.all isOperatorChar then none else (glue rest).map ((word ++ next) :: ·)
    else (glue (next :: rest)).map (word :: ·)

/-- The segment with one more comparison in front. -/
def consComparison (c : Comparison) (s : Segment) : Segment :=
  { s with comparisons := c :: s.comparisons }

/-- The segment with one more hyphen range in front. -/
def consHyphenRange (r : HyphenRange) (s : Segment) : Segment :=
  { s with hyphenRanges := r :: s.hyphenRanges }

/-- The segment that the glued words write. -/
def ofWords? : List (List Char) → Option Segment
  | [] => some ⟨[], []⟩
  | low :: ['-'] :: high :: rest => do
    let low ← Partial.read? low
    let high ← Partial.read? high
    return consHyphenRange ⟨low, high⟩ (← ofWords? rest)
  | word :: rest => do
    let c ← Comparison.read? word
    return consComparison c (← ofWords? rest)

/-- The segment that `cs` writes. -/
def read? (cs : List Char) : Option Segment := (glue (Text.words cs)).bind ofWords?

end Segment

namespace Outline

/-- The parts of a text between the occurrences of `||`, taken from the left. -/
def alternatives : List Char → List (List Char)
  | [] => [[]]
  | '|' :: '|' :: cs => [] :: alternatives cs
  | c :: cs => (alternatives cs).modifyHead (c :: ·)

/-- The outline that the text of a requirement writes. -/
def parse (raw : String) : Except RequirementError Outline :=
  match (alternatives raw.toList).mapM Segment.read? with
  | some segments => .ok ⟨raw, segments⟩
  | none => .error (.malformed raw)

end Outline

end SemverRange
