import SemverRange.Version.Precedence

/-!
# Intervals of versions

**The value** (`Interval`). A lower bound, and an upper bound that may be missing; each may belong
to the interval or not. A missing upper bound leaves the interval open to every higher version,
pre-releases and all, and no version stands for it. An interval whose lower bound is above its
upper bound is empty.

**Membership** (`contains`) goes by precedence. **Text** (`text?`) shows the bounds in brackets
and a missing upper bound as `*`.
-/

namespace SemverRange

structure Interval where
  min : Version
  max : Option Version
  minInclusive : Bool
  maxInclusive : Bool
  deriving DecidableEq

namespace Interval

def aboveMin (i : Interval) (v : Version) : Bool :=
  if i.minInclusive then v.ge i.min else v.gt i.min

def belowMax (i : Interval) (v : Version) : Bool :=
  match i.max with
  | none => true
  | some top => if i.maxInclusive then v.le top else v.lt top

def contains (i : Interval) (v : Version) : Bool := i.aboveMin v && i.belowMax v

def maxText? (i : Interval) : Option String :=
  match i.max with
  | none => some "*"
  | some top => top.text?

/-- The text of the interval, if its bounds can be written. -/
def text? (i : Interval) : Option String := do
  let low ← i.min.text?
  let high ← i.maxText?
  return (if i.minInclusive then "[" else "(") ++ low ++ ", " ++ high ++
    (if i.maxInclusive then "]" else ")")

/-! ## Shapes -/

/-- From `v` on, with no upper bound. -/
def startingAt (v : Version) : Interval := ⟨v, none, true, true⟩

/-- Above `v`, with no upper bound. -/
def above (v : Version) : Interval := ⟨v, none, false, true⟩

/-- From `low` to `high`, both included. -/
def closed (low high : Version) : Interval := ⟨low, some high, true, true⟩

/-- From `low` up to, but not including, `high`. -/
def upTo (low high : Version) : Interval := ⟨low, some high, true, false⟩

/-- An interval without members: its lower bound has the greatest 64-bit numbers. -/
def empty : Interval :=
  let top : Int := 9223372036854775807
  closed (Version.release ⟨top, top, top⟩) (Version.release ⟨0, 0, 0⟩)

end Interval

end SemverRange
