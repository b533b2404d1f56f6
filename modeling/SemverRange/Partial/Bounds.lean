import SemverRange.Error
import SemverRange.Partial.Basic
import SemverRange.Version.Basic

/-!
# The bounds that a partial version describes

A partial version stands for a band of versions: `1.2` for all versions from `1.2.0` up to, but not
including, `1.3.0`.

**Shape** (`Partial.check`). Wildcards must be the last components, and a version with a wildcard
has no qualifiers. **Bottom** (`lowest`) puts zero for a wildcard. **Tops** are exclusive:
`bandTop` of the band itself, `tildeTop` of the versions with the same minor, `caretTop` of the
versions that agree up to the left-most number that is not zero.

**Floor** (`Version.floor`). A bound that the program derives, rather than the user writes, sinks
to the least pre-release of its triple when pre-releases are included.

Errors come in a fixed order: the shape first, then the numbers from left to right, then the
identifiers.

Main statement: `check_eq_ok_iff`, the shape that is accepted.
-/

namespace SemverRange

namespace Partial

/-- The wildcards of `p` form no band, or come with qualifiers. -/
def isMisshapen (p : Partial) : Bool :=
  (isWildcard p.minor && !isWildcard p.patch) || (isWildcard p.major && !isWildcard p.minor) ||
    ((isWildcard p.minor || isWildcard p.patch) && !(p.prerelease.isEmpty && p.build.isEmpty))

/-- Refuses a misshapen partial version. -/
def check (p : Partial) : Except RequirementError Unit :=
  if p.isMisshapen then .error (.malformed p.render) else .ok ()

theorem check_eq_ok_iff {p : Partial} : p.check = .ok () ↔ p.isMisshapen = false := by
  cases h : p.isMisshapen <;> simp [check, h]

/-- The number of a component; a wildcard counts as zero. -/
def number (component : Option String) : Except RequirementError Int :=
  if isWildcard component then .ok 0
  else
    match Numeral.readSigned? (component.getD "").toList with
    | some n => .ok n
    | none => .error .unreadableNumber

/-- The three numbers of `p`, after a check of its shape. -/
def triple (p : Partial) : Except RequirementError Triple := do
  p.check
  return ⟨← number p.major, ← number p.minor, ← number p.patch⟩

/-- The version with triple `t` and, if `p` is exact, the qualifiers of `p`. -/
def qualified (p : Partial) (t : Triple) : Except RequirementError Version :=
  if p.isExact then
    match Version.ofParts? t p.prerelease p.build with
    | some v => .ok v
    | none => .error (.malformed p.render)
  else .ok (Version.release t)

/-! ## Bottom and tops -/

/-- The lowest release of the band of `p`; an exact version is its own. -/
def lowest (p : Partial) : Except RequirementError Version := do
  p.qualified (← p.triple)

/-- The triple just above the band of a partial version with the numbers `t`. -/
def bandEnd (p : Partial) (t : Triple) : Triple :=
  if isWildcard p.minor then ⟨t.major + 1, 0, 0⟩
  else if isWildcard p.patch then ⟨t.major, t.minor + 1, 0⟩
  else t

/-- The exclusive top of the band of `p`; an exact version is its own. -/
def bandTop (p : Partial) : Except RequirementError Version := do
  p.qualified (p.bandEnd (← p.triple))

/-- The exclusive top of the versions that share major and, if given, minor with `p`. -/
def tildeTop (p : Partial) : Except RequirementError Version := do
  p.check
  let major ← number p.major
  let minor ← number p.minor
  return Version.release
    (if isWildcard p.minor then ⟨major + 1, 0, 0⟩ else ⟨major, minor + 1, 0⟩)

/-- The triple just above the versions that agree with `p`, of numbers `t`, up to its left-most
number that is not zero, or on all its numbers if they are zero. -/
def caretEnd (p : Partial) (t : Triple) : Triple :=
  if t = ⟨0, 0, 0⟩ ∧ isWildcard p.minor then ⟨1, 0, 0⟩
  else if t = ⟨0, 0, 0⟩ ∧ isWildcard p.patch then ⟨0, 1, 0⟩
  else if 0 < t.major then ⟨t.major + 1, 0, 0⟩
  else if t.minor = 0 then ⟨t.major, t.minor, t.patch + 1⟩
  else ⟨t.major, t.minor + 1, 0⟩

/-- The exclusive top of the versions that introduce no breaking change over `p`. -/
def caretTop (p : Partial) : Except RequirementError Version := do
  return Version.release (p.caretEnd (← p.triple))

end Partial

/-! ## Floor -/

namespace Version

/-- The least pre-release of the triple of `v`, if pre-releases are included and `v` is none. -/
def floor (v : Version) (includePrerelease : Bool) : Version :=
  if includePrerelease && v.isRelease then ⟨v.toTriple, ["0"], []⟩ else v

end Version

namespace Partial

/-- The lowest version of the band of `p`, with the pre-releases of its bottom if they are
included and `p` is not exact. -/
def lower (p : Partial) (includePrerelease : Bool) : Except RequirementError Version := do
  let v ← p.lowest
  return if p.isExact then v else v.floor includePrerelease

end Partial

end SemverRange
