import SemverRange.Version.Basic

/-!
# Precedence of versions

**Triples** (`Triple.compare`) are compared number by number. **Identifiers**
(`Identifier.Rank.compare`): a numeric one by its value and below every word, words by the codes
of their characters. **Pre-releases** (`comparePrerelease`): identifier by identifier, the shorter
list first, and having none at all is highest. **Versions** (`Version.precedence`): by triple, then
by pre-release; build identifiers do not count.

The relations `lt`, `le`, `gt` and `ge` read the precedence; equality of versions, which sees the
build as well, is a different relation.

Each comparison is total and transitive, so precedence is a total preorder of the versions
(`Std.TransCmp Version.precedence`). Main statements: `le_trans`, `le_total` and `lt_eq_not_le`.
-/

namespace SemverRange

/-- A comparison of values by a part of them is as good as the comparison of the parts. -/
theorem transCmp_on (cmp : β → β → Ordering) [Std.TransCmp cmp] (f : α → β) :
    Std.TransCmp fun x y => cmp (f x) (f y) where
  eq_swap := Std.OrientedCmp.eq_swap
  isLE_trans := Std.TransCmp.isLE_trans

namespace Triple

/-- Lexicographic comparison of major, minor and patch. -/
def compare (a b : Triple) : Ordering :=
  (Ord.compare a.major b.major).then <|
    (Ord.compare a.minor b.minor).then <| Ord.compare a.patch b.patch

instance : Std.TransCmp Triple.compare :=
  inferInstanceAs (Std.TransCmp (compareLex (compareOn Triple.major)
    (compareLex (compareOn Triple.minor) (compareOn Triple.patch))))

end Triple

namespace Identifier

/-- What an identifier counts for in a comparison. -/
inductive Rank where
  | number (n : Nat)
  | word (codes : List Nat)
  deriving DecidableEq

/-- Numbers by value and below words; words by their codes. -/
def Rank.compare : Rank → Rank → Ordering
  | .number m, .number n => Ord.compare m n
  | .number _, .word _ => .lt
  | .word _, .number _ => .gt
  | .word a, .word b => List.compareLex Ord.compare a b

instance : Std.OrientedCmp Rank.compare where
  eq_swap {a b} := by
    cases a <;> cases b <;> simp only [Rank.compare]
    · exact Std.OrientedOrd.eq_swap
    · rfl
    · rfl
    · exact Std.OrientedCmp.eq_swap

instance : Std.TransCmp Rank.compare where
  isLE_trans {a b c} hab hbc := by
    cases a <;> cases b <;> cases c <;> simp only [Rank.compare] at *
    all_goals first | exact Std.TransCmp.isLE_trans hab hbc | contradiction | rfl

def rank (id : String) : Rank :=
  if isNumeric id then .number (Numeral.value id.toList) else .word (id.toList.map Char.toNat)

def compare (a b : String) : Ordering := (rank a).compare (rank b)

instance : Std.TransCmp Identifier.compare := transCmp_on Rank.compare rank

end Identifier

/-- Comparison of two lists of pre-release identifiers; the empty list is highest. -/
def comparePrerelease : List String → List String → Ordering
  | [], [] => .eq
  | [], _ :: _ => .gt
  | _ :: _, [] => .lt
  | a, b => List.compareLex Identifier.compare a b

theorem comparePrerelease_cons (x y : String) (xs ys : List String) :
    comparePrerelease (x :: xs) (y :: ys) =
      List.compareLex Identifier.compare (x :: xs) (y :: ys) := rfl

instance : Std.OrientedCmp comparePrerelease where
  eq_swap {a b} := by
    cases a <;> cases b
    · rfl
    · rfl
    · rfl
    · rw [comparePrerelease_cons, comparePrerelease_cons]
      exact Std.OrientedCmp.eq_swap

instance : Std.TransCmp comparePrerelease where
  isLE_trans {a b c} hab hbc := by
    cases a <;> cases b <;> cases c
    case cons.cons.cons =>
      rw [comparePrerelease_cons] at *
      exact Std.TransCmp.isLE_trans hab hbc
    all_goals first | contradiction | rfl

namespace Version

/-- Precedence of `v` against `w`. -/
def precedence (v w : Version) : Ordering :=
  (v.toTriple.compare w.toTriple).then (comparePrerelease v.prerelease w.prerelease)

instance : Std.TransCmp Version.precedence := by
  have byTriple := transCmp_on Triple.compare Version.toTriple
  have byPrerelease := transCmp_on comparePrerelease Version.prerelease
  exact inferInstanceAs (Std.TransCmp (compareLex
    (fun v w : Version => v.toTriple.compare w.toTriple)
    (fun v w : Version => comparePrerelease v.prerelease w.prerelease)))

def lt (v w : Version) : Bool := (v.precedence w).isLT

def le (v w : Version) : Bool := (v.precedence w).isLE

def gt (v w : Version) : Bool := (v.precedence w).isGT

def ge (v w : Version) : Bool := (v.precedence w).isGE

theorem le_trans {u v w : Version} (huv : u.le v = true) (hvw : v.le w = true) :
    u.le w = true :=
  Std.TransCmp.isLE_trans huv hvw

theorem le_total (v w : Version) : v.le w = true ∨ w.le v = true := by
  have hs : v.precedence w = (w.precedence v).swap := Std.OrientedCmp.eq_swap
  unfold le
  rw [hs]
  cases w.precedence v <;> simp

theorem lt_eq_not_le (v w : Version) : v.lt w = !w.le v := by
  have hs : v.precedence w = (w.precedence v).swap := Std.OrientedCmp.eq_swap
  unfold lt le
  rw [hs]
  cases w.precedence v <;> rfl

def sameTriple (v w : Version) : Bool := v.toTriple == w.toTriple

end Version

end SemverRange
