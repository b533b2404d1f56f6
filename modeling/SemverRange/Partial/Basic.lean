import SemverRange.Text.Blank
import SemverRange.Text.Digit
import SemverRange.Version.Written

/-!
# Partial versions

**The value** (`Partial`). The components of a version as they were written: minor and patch may
be missing, and any component may be a wildcard (`x`, `X`, `*`, or blank text). Numbers are kept
as text; what they stand for is computed in `SemverRange.Partial.Bounds`.

**Reading** (`Partial.read?`). An optional `v`, one to three components separated by points, and
qualifiers. A component is `0`, a wildcard, or a digit from `1` to `9` followed by digits of any
script. **Writing** (`Partial.render`) shows a missing or empty component as `x`.
-/

namespace SemverRange

/-- A version as written in a requirement. -/
structure Partial where
  major : String
  minor : Option String
  patch : Option String
  prerelease : List String
  build : List String
  deriving DecidableEq

namespace Partial

/-- A component that stands for every number: absent, blank, `x`, `X` or `*`. -/
def isWildcard : Option String → Bool
  | none => true
  | some s => [[], ['x'], ['X'], ['*']].contains (Text.trim s.toList)

/-- All three components are numbers. -/
def isExact (p : Partial) : Bool :=
  !(isWildcard p.major || isWildcard p.minor || isWildcard p.patch)

def shown : Option String → List Char
  | none => ['x']
  | some s => if s.toList.isEmpty then ['x'] else s.toList

/-- The pieces of the text that shows a partial version. -/
def written (p : Partial) : Written :=
  ⟨[shown p.major, shown p.minor, shown p.patch], p.prerelease.map (·.toList),
    p.build.map (·.toList)⟩

/-- The text that shows a partial version, with all three components. -/
def render (p : Partial) : String := String.ofList p.written.text

/-! ## Reading -/

/-- `0`, a wildcard, or digits of which the first is from `1` to `9`. -/
def isComponent : List Char → Bool
  | [] => false
  | c :: ds =>
    (ds.isEmpty && ['0', 'x', 'X', '*'].contains c) ||
      (49 ≤ c.toNat && c.toNat ≤ 57 && ds.all Text.isDigit)

/-- The partial version with the given pieces. -/
def ofWritten? (w : Written) : Option Partial :=
  let prerelease := w.prerelease.map String.ofList
  let build := w.build.map String.ofList
  if w.core.all isComponent then
    match w.core.map String.ofList with
    | [major] => some ⟨major, none, none, prerelease, build⟩
    | [major, minor] => some ⟨major, some minor, none, prerelease, build⟩
    | [major, minor, patch] => some ⟨major, some minor, some patch, prerelease, build⟩
    | _ => none
  else none

/-- The partial version that `cs` writes. -/
def read? (cs : List Char) : Option Partial :=
  (Written.read? (Written.dropMark 'v' cs)).bind ofWritten?

end Partial

end SemverRange
