import SemverRange.Partial.Bounds
import SemverRange.Version.Precedence

/-!
# Precedence by triple and pre-release

**Triples** are ordered lexicographically (`<`), and precedence decides by the triple first
and by the pre-release identifiers where the triples are equal (`precedence_eq_lt_iff`).

**The order** by precedence is total, and `lt` is the negation of `le` the other way round.

**The floor.** No pre-release of a triple lies below its pre-release `0`. So the floor of a
release is a clean cut between triples for the versions that are included: releases, and all
versions when pre-releases are included (`Version.Included`). A pre-release that is not included
lies below the release of its own triple.

Main result: `precedence_floor_eq_lt_iff`.
-/

namespace SemverRange

/-! ## Triples -/

namespace Triple

instance : LT Triple where
  lt a b := a.major < b.major ∨
    (a.major = b.major ∧ (a.minor < b.minor ∨ (a.minor = b.minor ∧ a.patch < b.patch)))

theorem lt_iff {a b : Triple} : a < b ↔ a.major < b.major ∨
    (a.major = b.major ∧ (a.minor < b.minor ∨ (a.minor = b.minor ∧ a.patch < b.patch))) :=
  Iff.rfl

theorem lt_mk_iff {a : Triple} {major minor patch : Int} : a < ⟨major, minor, patch⟩ ↔
    a.major < major ∨ (a.major = major ∧ (a.minor < minor ∨ (a.minor = minor ∧ a.patch < patch))) :=
  Iff.rfl

theorem eq_iff {a b : Triple} :
    a = b ↔ a.major = b.major ∧ a.minor = b.minor ∧ a.patch = b.patch := by
  cases a
  cases b
  simp

theorem compare_eq_lt_iff {a b : Triple} : a.compare b = .lt ↔ a < b := by
  simp only [compare, Ordering.then_eq_lt, Int.compare_eq_lt, Int.compare_eq_eq, lt_iff]

theorem compare_eq_eq_iff {a b : Triple} : a.compare b = .eq ↔ a = b := by
  simp only [compare, Ordering.then_eq_eq, Int.compare_eq_eq, eq_iff]

theorem compare_eq_gt_iff {a b : Triple} : a.compare b = .gt ↔ b < a := by
  simp only [compare, Ordering.then_eq_gt, Int.compare_eq_gt, Int.compare_eq_eq, lt_iff]
  omega

end Triple

/-! ## Pre-releases -/

theorem comparePrerelease_nil_eq_lt_iff {ids : List String} :
    comparePrerelease ids [] = .lt ↔ ids ≠ [] := by
  cases ids <;> simp [comparePrerelease]

theorem rank_zero : Identifier.rank "0" = .number 0 := by
  have hnumeric : Identifier.isNumeric "0" = true := by decide
  rw [Identifier.rank, if_pos hnumeric]
  rfl

/-- The pre-release `0` is the least. -/
theorem comparePrerelease_zero_ne_lt (ids : List String) : comparePrerelease ids ["0"] ≠ .lt := by
  cases ids with
  | nil => simp [comparePrerelease]
  | cons id ids =>
    rw [comparePrerelease_cons, List.compareLex_cons_cons, Identifier.compare, rank_zero]
    cases Identifier.rank id with
    | word codes => simp [Identifier.Rank.compare]
    | number n =>
      cases n with
      | zero => cases ids <;> simp [Identifier.Rank.compare, List.compareLex]
      | succ n =>
        have hgt : Ord.compare (n + 1) 0 = .gt := Nat.compare_eq_gt.2 (Nat.succ_pos n)
        simp [Identifier.Rank.compare, hgt]

namespace Version

/-! ## Versions -/

theorem lt_eq_true_iff {v w : Version} : v.lt w = true ↔ v.precedence w = .lt := by
  unfold lt
  cases v.precedence w <;> simp

theorem gt_eq_true_iff {v w : Version} : v.gt w = true ↔ v.precedence w = .gt := by
  unfold gt
  cases v.precedence w <;> simp

theorem le_eq_true_iff {v w : Version} : v.le w = true ↔ v.precedence w ≠ .gt := by
  unfold le
  cases v.precedence w <;> simp

theorem ge_eq_true_iff {v w : Version} : v.ge w = true ↔ v.precedence w ≠ .lt := by
  unfold ge
  cases v.precedence w <;> simp

theorem precedence_eq_lt_iff {v w : Version} : v.precedence w = .lt ↔
    v.toTriple < w.toTriple ∨ (v.toTriple = w.toTriple ∧
      comparePrerelease v.prerelease w.prerelease = .lt) := by
  rw [precedence, Ordering.then_eq_lt, Triple.compare_eq_lt_iff, Triple.compare_eq_eq_iff]

theorem precedence_eq_gt_iff {v w : Version} : v.precedence w = .gt ↔
    w.toTriple < v.toTriple ∨ (v.toTriple = w.toTriple ∧
      comparePrerelease v.prerelease w.prerelease = .gt) := by
  rw [precedence, Ordering.then_eq_gt, Triple.compare_eq_gt_iff, Triple.compare_eq_eq_iff]

theorem precedence_eq_eq_iff {v w : Version} : v.precedence w = .eq ↔
    v.toTriple = w.toTriple ∧ comparePrerelease v.prerelease w.prerelease = .eq := by
  rw [precedence, Ordering.then_eq_eq, Triple.compare_eq_eq_iff]

theorem isRelease_iff {v : Version} : v.isRelease = true ↔ v.prerelease = [] := by
  simp [isRelease]

/-! ## The order of precedence -/

theorem le_refl (v : Version) : v.le v = true := (le_total v v).elim id id

theorem gt_eq_lt (v w : Version) : v.gt w = w.lt v := by
  have hs : v.precedence w = (w.precedence v).swap := Std.OrientedCmp.eq_swap
  unfold gt lt
  rw [hs]
  cases w.precedence v <;> rfl

theorem lt_iff_not_le {v w : Version} : v.lt w = true ↔ ¬ w.le v = true := by
  simp [lt_eq_not_le]

theorem lt_of_le_of_lt {u v w : Version} (huv : u.le v = true) (hvw : v.lt w = true) :
    u.lt w = true := by
  rw [lt_iff_not_le] at hvw ⊢
  intro hwu
  exact hvw (le_trans hwu huv)

theorem lt_of_lt_of_le {u v w : Version} (huv : u.lt v = true) (hvw : v.le w = true) :
    u.lt w = true := by
  rw [lt_iff_not_le] at huv ⊢
  intro hwu
  exact huv (le_trans hvw hwu)

/-- Two versions of which none is higher than the other tie. -/
theorem precedence_eq_eq_of_le {v w : Version} (hvw : v.le w = true) (hwv : w.le v = true) :
    v.precedence w = .eq := by
  have hs : v.precedence w = (w.precedence v).swap := Std.OrientedCmp.eq_swap
  unfold le at hvw hwv
  rw [hs] at hvw ⊢
  cases h : w.precedence v <;> simp_all

theorem le_of_lt {v w : Version} (h : v.lt w = true) : v.le w = true :=
  (le_total v w).resolve_right (lt_iff_not_le.1 h)

/-! ## The floor -/

/-- A release, or any version when pre-releases are included. -/
def Included (v : Version) (includePrerelease : Bool) : Prop :=
  v.isRelease = true ∨ includePrerelease = true

instance (v : Version) (includePrerelease : Bool) : Decidable (v.Included includePrerelease) := by
  unfold Included
  infer_instance

theorem flag_eq_false_of_not_included {v : Version} {flag : Bool} (h : ¬ v.Included flag) :
    flag = false :=
  Bool.eq_false_iff.2 fun hflag => h (.inr hflag)

theorem floor_release_false (t : Triple) : (release t).floor false = release t := rfl

theorem floor_release_true (t : Triple) : (release t).floor true = ⟨t, ["0"], []⟩ := rfl

theorem toTriple_floor (v : Version) (includePrerelease : Bool) :
    (v.floor includePrerelease).toTriple = v.toTriple := by
  unfold floor
  split <;> rfl

/-- The floor of a release cuts between triples, except that a pre-release that is not included lies
below the release of its triple. -/
theorem precedence_floor_eq_lt_iff {v : Version} {t : Triple} {flag : Bool} :
    v.precedence ((release t).floor flag) = .lt ↔
      v.toTriple < t ∨ (v.toTriple = t ∧ ¬ v.Included flag) := by
  rw [precedence_eq_lt_iff, toTriple_floor]
  refine or_congr_right (and_congr_right fun _ => ?_)
  cases flag with
  | false =>
    rw [floor_release_false]
    simp only [release, Included, isRelease_iff, Bool.false_eq_true, or_false]
    exact comparePrerelease_nil_eq_lt_iff
  | true =>
    rw [floor_release_true]
    simp [Included, comparePrerelease_zero_ne_lt]

theorem precedence_release_eq_lt_iff {v : Version} {t : Triple} :
    v.precedence (release t) = .lt ↔
      v.toTriple < t ∨ (v.toTriple = t ∧ v.isRelease = false) := by
  rw [← floor_release_false, precedence_floor_eq_lt_iff]
  simp [Included]

end Version

end SemverRange
