/-!
# The written form of versions

Complete and partial versions share one layout: a core of pieces separated by points, then
optionally `-` and pre-release identifiers, then optionally `+` and build identifiers, both lists
again separated by points.

**Reading** (`Written.read?`). No piece of the core holds `-` or `+` and no identifier holds `+`,
so the first `+` starts the build and the first `-` before it starts the pre-release: a text has
at most one such reading. **Writing** (`Written.text`) puts the parts together again.

Main statement: `cut_append`, the first mark of a text is where it is cut.
-/

namespace SemverRange

/-- The pieces of a version text. An absent qualifier is an empty list. -/
structure Written where
  core : List (List Char)
  prerelease : List (List Char)
  build : List (List Char)
  deriving DecidableEq

namespace Written

/-- ASCII letters, ASCII digits and the hyphen. -/
def isIdentifierChar (c : Char) : Bool := c.isAlphanum || c == '-'

/-- A non-empty run of identifier characters. -/
def isIdentifier (cs : List Char) : Bool := !cs.isEmpty && cs.all isIdentifierChar

/-- `cs` without `mark` if it starts with it. -/
def dropMark (mark : Char) : List Char → List Char
  | [] => []
  | c :: cs => if c = mark then cs else c :: cs

/-- The part of `cs` before the first `mark`, and the part after it if there is one. -/
def cut (mark : Char) (cs : List Char) : List Char × Option (List Char) :=
  (cs.takeWhile (· != mark), match cs.dropWhile (· != mark) with
    | [] => none
    | _ :: rest => some rest)

/-- The identifiers of a qualifier that may be absent; one that is present has no empty one. -/
def identifiers? : Option (List Char) → Option (List (List Char))
  | none => some []
  | some cs => if (cs.splitOn '.').all isIdentifier then some (cs.splitOn '.') else none

/-- The pieces of `cs`, if its qualifiers are well formed. -/
def read? (cs : List Char) : Option Written :=
  let (front, build) := cut '+' cs
  let (core, prerelease) := cut '-' front
  match identifiers? prerelease, identifiers? build with
  | some prerelease, some build => some ⟨core.splitOn '.', prerelease, build⟩
  | _, _ => none

/-- Pieces with a point between each two. -/
def dotted (pieces : List (List Char)) : List Char := ['.'].intercalate pieces

/-- A qualifier with the mark that introduces it, or nothing if it is empty. -/
def qualifier (mark : Char) (ids : List (List Char)) : List Char :=
  if ids.isEmpty then [] else mark :: dotted ids

def text (w : Written) : List Char :=
  dotted w.core ++ qualifier '-' w.prerelease ++ qualifier '+' w.build

theorem cut_append {mark : Char} {cs : List Char} (h : mark ∉ cs) (rest : List Char) :
    cut mark (cs ++ mark :: rest) = (cs, some rest) := by
  have hall : ∀ c ∈ cs, (c != mark) = true := fun c hc => by
    simp only [bne_iff_ne]; rintro rfl; exact h hc
  simp [cut, List.takeWhile_append_of_pos hall, List.dropWhile_append_of_pos hall]

end Written

end SemverRange
