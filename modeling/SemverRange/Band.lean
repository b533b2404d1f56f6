import SemverRange.Comparator
import SemverRange.Interval
import SemverRange.Partial.Bounds

/-!
# The interval of a clause

**Comparators** (`Comparator.interval`). Each comparator and partial version describe an
interval. A wildcard in the major place stands for every version, so only the strict comparators
exclude anything: they exclude all.

**Hyphen ranges** (`Interval.between`). The low end is included; an exact high end is included,
and a partial one reaches to the top of its band.

Bounds that were written out in full stay as they are, all others are floored when pre-releases
are included. Where both ends are faulty the error of the low end counts.
-/

namespace SemverRange

/-- The lowest release of all. -/
def Version.zero : Version := Version.release ⟨0, 0, 0⟩

namespace Comparator

/-- The interval of a comparator with a partial version whose major is a number. -/
def band (c : Comparator) (p : Partial) (includePrerelease : Bool) :
    Except RequirementError Interval := do
  match c with
  | eq =>
    if p.isExact then
      let v ← p.lowest
      return .closed v v
    else
      let low ← p.lower includePrerelease
      return .upTo low ((← p.bandTop).floor includePrerelease)
  | gt =>
    if p.isExact then return .above (← p.lowest)
    else return .startingAt ((← p.bandTop).floor includePrerelease)
  | lt => return .upTo .zero (← p.lower includePrerelease)
  | ge => return .startingAt (← p.lower includePrerelease)
  | le =>
    if p.isExact then return .closed .zero (← p.lowest)
    else return .upTo .zero ((← p.bandTop).floor includePrerelease)
  | tilde =>
    let low ← p.lower includePrerelease
    return .upTo low ((← p.tildeTop).floor includePrerelease)
  | caret =>
    let low ← p.lower includePrerelease
    return .upTo low ((← p.caretTop).floor includePrerelease)

/-- The interval of a comparator with a partial version. -/
def interval (c : Comparator) (p : Partial) (includePrerelease : Bool) :
    Except RequirementError Interval := do
  if Partial.isWildcard p.major then
    p.check
    match c with
    | gt | lt => return .empty
    | _ => return .startingAt (Version.zero.floor includePrerelease)
  else c.band p includePrerelease

end Comparator

namespace Interval

/-- The lower bound of a hyphen range that starts with `low`. -/
def lowEnd (low : Partial) (includePrerelease : Bool) : Except RequirementError Version := do
  if Partial.isWildcard low.major then
    low.check
    return Version.zero.floor includePrerelease
  else low.lower includePrerelease

/-- The interval of the hyphen range from `low` to `high`. -/
def between (low high : Partial) (includePrerelease : Bool) : Except RequirementError Interval := do
  let bottom ← lowEnd low includePrerelease
  if Partial.isWildcard high.major then
    high.check
    return .startingAt bottom
  else if high.isExact then return .closed bottom (← high.lowest)
  else return .upTo bottom ((← high.bandTop).floor includePrerelease)

end Interval

end SemverRange
