import SemverRange.Clause
import SemverRange.Proofs.Band.Extent
import SemverRange.Proofs.Partial.Faults

/-!
# Build identifiers do not count

**Taking off the build** (`withoutBuild`). Precedence, and equality of triples, do not see the build
of a version. So neither the build of a version that is asked for nor those of the bounds of a leaf
make a difference to the answer.

**Bounds.** The build of a partial version becomes the build of its bottom, if it is complete, and
goes nowhere else: the extent of a partial version without its build is the extent without builds
(`Comparator.extent_withoutBuild`). What is wrong with it can only become less.
-/

namespace SemverRange

/-! ## Versions and leaves -/

namespace Version

/-- The version with no build identifiers. -/
def withoutBuild (v : Version) : Version := { v with build := [] }

theorem withoutBuild_eq_of_eq {v w : Version} (htriple : v.toTriple = w.toTriple)
    (hprerelease : v.prerelease = w.prerelease) : v.withoutBuild = w.withoutBuild := by
  rw [withoutBuild, withoutBuild, htriple, hprerelease]

@[simp] theorem withoutBuild_release (t : Triple) : (release t).withoutBuild = release t := rfl

@[simp] theorem withoutBuild_zero : zero.withoutBuild = zero := rfl

@[simp] theorem withoutBuild_floor (v : Version) (flag : Bool) :
    (v.floor flag).withoutBuild = v.withoutBuild.floor flag := by
  have hrelease : v.withoutBuild.isRelease = v.isRelease := rfl
  unfold floor
  rw [hrelease, apply_ite withoutBuild]
  rfl

end Version

namespace Interval

/-- The interval with no build identifiers in its bounds. -/
def withoutBuild (i : Interval) : Interval :=
  { i with min := i.min.withoutBuild, max := i.max.map Version.withoutBuild }

@[simp] theorem withoutBuild_startingAt (v : Version) :
    (startingAt v).withoutBuild = startingAt v.withoutBuild := rfl

@[simp] theorem withoutBuild_above (v : Version) :
    (above v).withoutBuild = above v.withoutBuild := rfl

@[simp] theorem withoutBuild_closed (low high : Version) :
    (closed low high).withoutBuild = closed low.withoutBuild high.withoutBuild := rfl

@[simp] theorem withoutBuild_upTo (low high : Version) :
    (upTo low high).withoutBuild = upTo low.withoutBuild high.withoutBuild := rfl

@[simp] theorem withoutBuild_empty : empty.withoutBuild = empty := rfl

theorem contains_withoutBuild (i : Interval) (v : Version) :
    i.withoutBuild.contains v = i.contains v := by
  have habove : i.withoutBuild.aboveMin v = i.aboveMin v := rfl
  have hbelow : i.withoutBuild.belowMax v = i.belowMax v := by
    unfold belowMax withoutBuild
    cases i.max <;> rfl
  rw [contains, contains, habove, hbelow]

end Interval

namespace Leaf

/-- The leaf with no build identifiers in its bounds. -/
def withoutBuild (l : Leaf) : Leaf := { l with interval := l.interval.withoutBuild }

/-- The builds of the bounds do not count. -/
theorem accepts_withoutBuild (l : Leaf) (v : Version) : l.withoutBuild.accepts v = l.accepts v := by
  have hrefuses : l.withoutBuild.refusesTriple v = l.refusesTriple v := rfl
  rw [accepts, accepts, hrefuses]
  exact congrArg _ (Interval.contains_withoutBuild l.interval v)

theorem anchors_withoutBuild (l : Leaf) (v : Version) : l.withoutBuild.anchors v = l.anchors v := by
  have hmax : (l.interval.max.map Version.withoutBuild).any (boundAnchors v) =
      l.interval.max.any (boundAnchors v) := by
    cases l.interval.max <;> rfl
  exact congrArg _ hmax

/-- The build of the version does not count. -/
theorem accepts_congr (l : Leaf) {v w : Version} (h : v.withoutBuild = w.withoutBuild) :
    l.accepts v = l.accepts w :=
  calc l.accepts v = l.accepts v.withoutBuild := rfl
    _ = l.accepts w.withoutBuild := by rw [h]
    _ = l.accepts w := rfl

theorem anchors_congr (l : Leaf) {v w : Version} (h : v.withoutBuild = w.withoutBuild) :
    l.anchors v = l.anchors w :=
  calc l.anchors v = l.anchors v.withoutBuild := rfl
    _ = l.anchors w.withoutBuild := by rw [h]
    _ = l.anchors w := rfl

end Leaf

/-! ## Partial versions -/

namespace Partial

/-- The partial version with no build identifiers. -/
def withoutBuild (p : Partial) : Partial := { p with build := [] }

@[simp] theorem major_withoutBuild (p : Partial) : p.withoutBuild.major = p.major := rfl

@[simp] theorem isExact_withoutBuild (p : Partial) : p.withoutBuild.isExact = p.isExact := rfl

@[simp] theorem bottom_withoutBuild (p : Partial) :
    p.withoutBuild.bottom = p.bottom.withoutBuild := rfl

@[simp] theorem floorBottom_withoutBuild (p : Partial) (flag : Bool) :
    p.withoutBuild.floorBottom flag = (p.floorBottom flag).withoutBuild := by
  unfold floorBottom
  rw [apply_ite Version.withoutBuild, Version.withoutBuild_floor]
  rfl

@[simp] theorem bandCeiling_withoutBuild (p : Partial) (flag : Bool) :
    p.withoutBuild.bandCeiling flag = (p.bandCeiling flag).withoutBuild := by
  rw [bandCeiling, bandCeiling, Version.withoutBuild_floor]
  rfl

theorem Spellable.withoutBuild {p : Partial} (hp : p.Spellable) : p.withoutBuild.Spellable where
  component := hp.component
  patch_eq_none := hp.patch_eq_none
  prerelease := hp.prerelease
  build := fun _ hid => absurd hid List.not_mem_nil

/-- Without its build nothing new is wrong with a partial version. -/
theorem faults_withoutBuild {p : Partial} (h : p.faults = []) : p.withoutBuild.faults = [] := by
  obtain ⟨hshape, hwithin, hnamed⟩ := faults_eq_nil_iff.1 h
  refine faults_eq_nil_iff.2 ⟨?_, hwithin, ?_⟩
  · rintro (hlast | ⟨hexact, hprerelease | hbuild⟩)
    · exact hshape (.inl hlast)
    · exact hshape (.inr ⟨hexact, .inl hprerelease⟩)
    · exact hbuild rfl
  · rintro ⟨hexact, hprerelease | ⟨id, hid, -⟩⟩
    · exact hnamed ⟨hexact, .inl hprerelease⟩
    · exact absurd hid List.not_mem_nil

end Partial

/-! ## Bounds -/

/-- The build of a partial version is no more than that of its bounds. -/
theorem Comparator.extent_withoutBuild (k : Comparator) (p : Partial) (flag : Bool) :
    k.extent p.withoutBuild flag = (k.extent p flag).withoutBuild := by
  have htilde : p.withoutBuild.tildeEnd = p.tildeEnd := rfl
  have hcaret : p.withoutBuild.caretEnd p.withoutBuild.base = p.caretEnd p.base := rfl
  by_cases hmajor : Partial.isWildcard p.major = true
  · cases k <;> simp [extent, hmajor]
  · by_cases hexact : p.isExact = true
    · cases k <;> simp [extent, hmajor, hexact, htilde, hcaret]
    · cases k <;> simp [extent, hmajor, hexact, htilde, hcaret]

theorem Interval.span_withoutBuild (low high : Partial) (flag : Bool) :
    span low.withoutBuild high.withoutBuild flag = (span low high flag).withoutBuild := by
  by_cases hmajor : Partial.isWildcard high.major = true
  · simp [span, hmajor]
  · by_cases hexact : high.isExact = true
    · simp [span, hmajor, hexact]
    · simp [span, hmajor, hexact]

end SemverRange
