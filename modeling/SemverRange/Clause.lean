import SemverRange.Comparator
import SemverRange.Interval

/-!
# Clauses

**The tree** (`Clause`). Leaves are intervals, tagged with the comparator they came from;
`every` asks for all its children, `either` for one of them.

**Pre-releases are opt-in.** A node `every` admits a pre-release only if pre-releases are included
there, or a leaf below it *anchors* the version: one of the leaf's bounds is itself a pre-release
of the same triple (`anchors`). A node `either` anchors nothing. A caret leaf moreover admits only
pre-releases of the triple of its lower bound.

Main statements: `accepts_every` and `accepts_either` give the meaning of the two kinds of node in
terms of their children, `anchors_every` and `text?_either` likewise.
-/

namespace SemverRange

/-- An interval with its origin; a hyphen range has no comparator. -/
structure Leaf where
  interval : Interval
  comparator : Option Comparator
  includePrerelease : Bool
  deriving DecidableEq

/-- A condition on versions. -/
inductive Clause where
  | leaf (l : Leaf)
  | every (children : List Clause) (includePrerelease : Bool)
  | either (children : List Clause)

namespace Leaf

/-- A bound is a pre-release of the triple of `v`. -/
def boundAnchors (v bound : Version) : Bool := !bound.isRelease && bound.sameTriple v

theorem boundAnchors_iff {v bound : Version} :
    boundAnchors v bound = true ↔ bound.prerelease ≠ [] ∧ bound.toTriple = v.toTriple := by
  simp [boundAnchors, Version.isRelease, Version.sameTriple]

/-- One of the bounds of the leaf is a pre-release of the triple of `v`. -/
def anchors (l : Leaf) (v : Version) : Bool :=
  boundAnchors v l.interval.min || l.interval.max.any (boundAnchors v)

/-- A caret leaf that does not include pre-releases refuses one of another triple. -/
def refusesTriple (l : Leaf) (v : Version) : Bool :=
  l.comparator == some .caret && !v.isRelease && !l.includePrerelease &&
    !v.sameTriple l.interval.min

def accepts (l : Leaf) (v : Version) : Bool := !l.refusesTriple v && l.interval.contains v

/-- The name of the comparator, or of a hyphen range. -/
def tag (l : Leaf) : String :=
  match l.comparator with
  | some c => c.tag
  | none => "DASH"

/-- The text of the leaf, if its bounds can be written. -/
def text? (l : Leaf) : Option String := l.interval.text?.map (l.tag ++ ·)

end Leaf

namespace Clause

/-! ## Anchors -/

mutual

/-- The clause names a pre-release of the triple of `v`. -/
def anchors (v : Version) : Clause → Bool
  | leaf l => l.anchors v
  | every children _ => anchorsSome v children
  | either _ => false

def anchorsSome (v : Version) : List Clause → Bool
  | [] => false
  | c :: cs => anchors v c || anchorsSome v cs

end

theorem anchorsSome_eq_any (v : Version) (cs : List Clause) :
    anchorsSome v cs = cs.any (anchors v) := by
  induction cs with
  | nil => simp [anchorsSome]
  | cons c cs ih => simp [anchorsSome, ih]

theorem anchors_every (v : Version) (cs : List Clause) (flag : Bool) :
    anchors v (every cs flag) = cs.any (anchors v) := by
  simp [anchors, anchorsSome_eq_any]

/-! ## Acceptance -/

mutual

def accepts (v : Version) : Clause → Bool
  | leaf l => l.accepts v
  | every children includePrerelease =>
    acceptsEvery v children &&
      (v.isRelease || includePrerelease || anchors v (every children includePrerelease))
  | either children => acceptsSome v children

def acceptsEvery (v : Version) : List Clause → Bool
  | [] => true
  | c :: cs => accepts v c && acceptsEvery v cs

def acceptsSome (v : Version) : List Clause → Bool
  | [] => false
  | c :: cs => accepts v c || acceptsSome v cs

end

theorem acceptsEvery_eq_all (v : Version) (cs : List Clause) :
    acceptsEvery v cs = cs.all (accepts v) := by
  induction cs with
  | nil => simp [acceptsEvery]
  | cons c cs ih => simp [acceptsEvery, ih]

theorem acceptsSome_eq_any (v : Version) (cs : List Clause) :
    acceptsSome v cs = cs.any (accepts v) := by
  induction cs with
  | nil => simp [acceptsSome]
  | cons c cs ih => simp [acceptsSome, ih]

theorem accepts_every (v : Version) (cs : List Clause) (flag : Bool) :
    accepts v (every cs flag) =
      (cs.all (accepts v) && (v.isRelease || flag || cs.any (anchors v))) := by
  simp [accepts, acceptsEvery_eq_all, anchors_every]

theorem accepts_either (v : Version) (cs : List Clause) :
    accepts v (either cs) = cs.any (accepts v) := by
  simp [accepts, acceptsSome_eq_any]

/-! ## Text -/

mutual

/-- The text of the clause, if its bounds can be written. A node `every` of empty text shows as
`*`. -/
def text? : Clause → Option String
  | leaf l => l.text?
  | every children _ => (texts? children).map fun ts =>
      if (" ".intercalate ts).isEmpty then "*" else " ".intercalate ts
  | either children => (texts? children).map (" || ".intercalate ·)

def texts? : List Clause → Option (List String)
  | [] => some []
  | c :: cs => do
    let t ← text? c
    let ts ← texts? cs
    return t :: ts

end

theorem texts?_eq_mapM (cs : List Clause) : texts? cs = cs.mapM text? := by
  induction cs with
  | nil => simp [texts?]
  | cons c cs ih => simp [texts?, ih]

theorem text?_either (cs : List Clause) :
    text? (either cs) = (cs.mapM text?).map (" || ".intercalate ·) := by
  simp [text?, texts?_eq_mapM]

end Clause

end SemverRange
