import SemverRange.Band
import SemverRange.Clause
import SemverRange.Requirement.Outline
import SemverRange.Text.Quoted
import SemverRange.Version.Candidate

/-!
# Requirements

**Building** (`Requirement.build`). Each comparison and hyphen range of the outline becomes a leaf;
the leaves of a segment, comparisons first, stand below one node `every`, and the segments below
one node `either`. An error of syntax anywhere comes before all others; these come segment by
segment, in the order of the leaves.

**Asking** (`accepts`, `check`). A version is accepted if the clause holds for it; a candidate is
read first. **Choosing** (`filter`, `maxSatisfying`). Candidates that are no versions are skipped;
of several highest versions that differ in build alone the first is chosen.

A requirement is determined by its text and by whether it includes pre-releases (`same`), and these
are what its description shows (`describe`).

Main statements: `check_of_read` and `mem_filter`.
-/

namespace SemverRange

/-- A requirement on versions with the clause that decides it. -/
structure Requirement where
  raw : String
  includePrerelease : Bool
  clause : Clause

/-- A candidate: a text that may write a version, or a version. -/
inductive Candidate where
  | text (s : String)
  | version (v : Version)
  deriving DecidableEq

namespace Candidate

/-- The version that a candidate stands for. -/
def read : Candidate → Except InvalidVersion Version
  | text s => Version.parse s
  | version v => .ok v

end Candidate

/-! ## Clauses of an outline -/

namespace Comparison

/-- The leaf of a comparison; without a symbol it asks for equality. -/
def leaf (c : Comparison) (includePrerelease : Bool) : Except RequirementError Leaf := do
  let comparator := (← Comparator.read c.symbol).getD .eq
  return ⟨← comparator.interval c.version includePrerelease, some comparator, includePrerelease⟩

end Comparison

namespace HyphenRange

def leaf (r : HyphenRange) (includePrerelease : Bool) : Except RequirementError Leaf := do
  return ⟨← Interval.between r.low r.high includePrerelease, none, includePrerelease⟩

end HyphenRange

namespace Segment

def clause (s : Segment) (includePrerelease : Bool) : Except RequirementError Clause := do
  let comparisons ← s.comparisons.mapM (·.leaf includePrerelease)
  let hyphenRanges ← s.hyphenRanges.mapM (·.leaf includePrerelease)
  return .every ((comparisons ++ hyphenRanges).map .leaf) includePrerelease

end Segment

namespace Outline

def clause (o : Outline) (includePrerelease : Bool) : Except RequirementError Clause := do
  return .either (← o.segments.mapM (·.clause includePrerelease))

end Outline

/-! ## Requirements -/

namespace Requirement

/-- The requirement with a given outline. -/
def ofOutline (o : Outline) (includePrerelease : Bool) : Except RequirementError Requirement := do
  return ⟨o.raw, includePrerelease, ← o.clause includePrerelease⟩

/-- The requirement that a text writes. -/
def build (raw : String) (includePrerelease : Bool) : Except RequirementError Requirement := do
  ofOutline (← Outline.parse raw) includePrerelease

def accepts (r : Requirement) (v : Version) : Bool := r.clause.accepts v

/-- Whether the requirement accepts the version that a candidate stands for. -/
def check (r : Requirement) (c : Candidate) : Except InvalidVersion Bool := r.accepts <$> c.read

/-- The accepted versions among the candidates, in order. -/
def filter (r : Requirement) (cs : List Candidate) : List Version :=
  (cs.filterMap (·.read.toOption)).filter r.accepts

/-- The first version of highest precedence. -/
def highest : List Version → Option Version
  | [] => none
  | v :: vs => some (vs.foldl (fun best w => if w.gt best then w else best) v)

/-- The first of the highest accepted versions among the candidates. -/
def maxSatisfying (r : Requirement) (cs : List Candidate) : Option Version := highest (r.filter cs)

/-- The two requirements have the same text and the same treatment of pre-releases. -/
def same (r s : Requirement) : Bool := r.raw == s.raw && r.includePrerelease == s.includePrerelease

/-- The text that shows a requirement and whether it includes pre-releases. -/
def describe (r : Requirement) : String :=
  "NpmVersionRequirement(" ++ Text.quoted r.raw ++ ", include_prerelease=" ++
    (if r.includePrerelease then "True" else "False") ++ ")"

theorem check_of_read {r : Requirement} {c : Candidate} {v : Version} (h : c.read = .ok v) :
    r.check c = .ok (r.accepts v) := by
  rw [check, h]; rfl

theorem mem_filter {r : Requirement} {cs : List Candidate} {v : Version} :
    v ∈ r.filter cs ↔ (∃ c ∈ cs, c.read.toOption = some v) ∧ r.accepts v = true := by
  simp [filter]

end Requirement

end SemverRange
