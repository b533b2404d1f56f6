import SemverRange.Band
import SemverRange.Proofs.Partial.Numbers

/-!
# The extent of a clause

A comparator or a hyphen range that can be translated has the interval that its shape and numbers
determine: `Comparator.extent` and `Interval.span` give it without any step that may fail. The
lower bound of a partial version is the same in both (`Partial.floorBottom`), also for a version
without any number, whose bottom is the lowest release of all.

Only few versions can be bounds (`Partial.Bounding`), so what is to hold of all bounds is shown of
these.

Main results: `Comparator.interval_eq_ok` and `Interval.between_eq_ok`.
-/

namespace SemverRange

namespace Partial

/-- The exclusive top of the band of a partial version that is not exact. -/
def bandCeiling (p : Partial) (includePrerelease : Bool) : Version :=
  (Version.release (p.bandEnd p.base)).floor includePrerelease

theorem Shape.base_of_isWildcard {p : Partial} (hs : p.Shape) (h : isWildcard p.major = true) :
    p.base = ⟨0, 0, 0⟩ := by
  cases hs with
  | any hmajor hminor hpatch =>
    rw [base, value_of_isWildcard hmajor, value_of_isWildcard hminor, value_of_isWildcard hpatch]
  | major hmajor | minor hmajor | exact hmajor =>
    rw [h] at hmajor
    exact absurd hmajor (by decide)

theorem isExact_of_isWildcard {p : Partial} (h : isWildcard p.major = true) :
    p.isExact = false := by
  simp [isExact, h]

theorem Shape.floorBottom_of_not_isExact {p : Partial} (hs : p.Shape) (h : p.isExact = false)
    (includePrerelease : Bool) :
    p.floorBottom includePrerelease = (Version.release p.base).floor includePrerelease := by
  rw [floorBottom, if_neg (by simp [h]), hs.bottom_of_not_isExact h]

theorem Shape.floorBottom_of_isWildcard {p : Partial} (hs : p.Shape)
    (h : isWildcard p.major = true) (includePrerelease : Bool) :
    p.floorBottom includePrerelease = Version.zero.floor includePrerelease := by
  rw [hs.floorBottom_of_not_isExact (isExact_of_isWildcard h), hs.base_of_isWildcard h,
    Version.zero]

end Partial

namespace Comparator

/-- The interval of a comparator with a partial version that stands for a band. -/
def extent (c : Comparator) (p : Partial) (includePrerelease : Bool) : Interval :=
  if Partial.isWildcard p.major then
    if c = gt ∨ c = lt then .empty else .startingAt (p.floorBottom includePrerelease)
  else
    match c with
    | eq =>
      if p.isExact then .closed p.bottom p.bottom
      else .upTo (p.floorBottom includePrerelease) (p.bandCeiling includePrerelease)
    | gt =>
      if p.isExact then .above p.bottom else .startingAt (p.bandCeiling includePrerelease)
    | lt => .upTo .zero (p.floorBottom includePrerelease)
    | ge => .startingAt (p.floorBottom includePrerelease)
    | le =>
      if p.isExact then .closed .zero p.bottom
      else .upTo .zero (p.bandCeiling includePrerelease)
    | tilde =>
      .upTo (p.floorBottom includePrerelease)
        ((Version.release p.tildeEnd).floor includePrerelease)
    | caret =>
      .upTo (p.floorBottom includePrerelease)
        ((Version.release (p.caretEnd p.base)).floor includePrerelease)

section

variable {p : Partial} {flag : Bool} (hmajor : Partial.isWildcard p.major = false)
include hmajor

theorem extent_eq (hexact : p.isExact = false) :
    eq.extent p flag = .upTo (p.floorBottom flag) (p.bandCeiling flag) := by
  simp [extent, hmajor, hexact]

theorem extent_le (hexact : p.isExact = false) :
    le.extent p flag = .upTo .zero (p.bandCeiling flag) := by
  simp [extent, hmajor, hexact]

theorem extent_gt (hexact : p.isExact = false) :
    gt.extent p flag = .startingAt (p.bandCeiling flag) := by
  simp [extent, hmajor, hexact]

theorem extent_lt : lt.extent p flag = .upTo .zero (p.floorBottom flag) := by
  simp [extent, hmajor]

theorem extent_tilde : tilde.extent p flag =
    .upTo (p.floorBottom flag) ((Version.release p.tildeEnd).floor flag) := by
  simp [extent, hmajor]

theorem extent_caret : caret.extent p flag =
    .upTo (p.floorBottom flag) ((Version.release (p.caretEnd p.base)).floor flag) := by
  simp [extent, hmajor]

end

theorem band_eq_ok {c : Comparator} {p : Partial} (hp : p.Spellable)
    (hmajor : Partial.isWildcard p.major = false) {flag : Bool} {i : Interval}
    (h : c.band p flag = .ok i) : p.Shape ∧ i = c.extent p flag := by
  cases c with
  | eq =>
    cases hexact : p.isExact with
    | true =>
      simp only [band, hexact, if_true] at h
      obtain ⟨v, hv, h⟩ := exists_ok_of_bind h
      obtain ⟨hs, rfl⟩ := Partial.lowest_eq_ok hp hv
      exact ⟨hs, by rw [← Except.ok.inj h]; simp [extent, hmajor, hexact]⟩
    | false =>
      simp only [band, hexact, Bool.false_eq_true, if_false] at h
      obtain ⟨v, hv, h⟩ := exists_ok_of_bind h
      obtain ⟨w, hw, h⟩ := exists_ok_of_bind h
      obtain ⟨hs, rfl⟩ := Partial.lower_eq_ok hp hv
      obtain ⟨-, rfl⟩ := Partial.bandTop_eq_ok hp hexact hw
      exact ⟨hs, by rw [← Except.ok.inj h, extent_eq hmajor hexact, Partial.bandCeiling]⟩
  | gt | le =>
    cases hexact : p.isExact with
    | true =>
      simp only [band, hexact, if_true] at h
      obtain ⟨v, hv, h⟩ := exists_ok_of_bind h
      obtain ⟨hs, rfl⟩ := Partial.lowest_eq_ok hp hv
      exact ⟨hs, by rw [← Except.ok.inj h]; simp [extent, hmajor, hexact]⟩
    | false =>
      simp only [band, hexact, Bool.false_eq_true, if_false] at h
      obtain ⟨w, hw, h⟩ := exists_ok_of_bind h
      obtain ⟨hs, rfl⟩ := Partial.bandTop_eq_ok hp hexact hw
      exact ⟨hs, by rw [← Except.ok.inj h]; simp [extent, hmajor, hexact, Partial.bandCeiling]⟩
  | lt | ge =>
    obtain ⟨v, hv, h⟩ := exists_ok_of_bind h
    obtain ⟨hs, rfl⟩ := Partial.lower_eq_ok hp hv
    exact ⟨hs, by rw [← Except.ok.inj h]; simp [extent, hmajor]⟩
  | tilde =>
    obtain ⟨v, hv, h⟩ := exists_ok_of_bind h
    obtain ⟨w, hw, h⟩ := exists_ok_of_bind h
    obtain ⟨hs, rfl⟩ := Partial.lower_eq_ok hp hv
    obtain rfl := Partial.tildeTop_eq_ok hp hw
    exact ⟨hs, by rw [← Except.ok.inj h, extent_tilde hmajor]⟩
  | caret =>
    obtain ⟨v, hv, h⟩ := exists_ok_of_bind h
    obtain ⟨w, hw, h⟩ := exists_ok_of_bind h
    obtain ⟨hs, rfl⟩ := Partial.lower_eq_ok hp hv
    obtain rfl := Partial.caretTop_eq_ok hp hw
    exact ⟨hs, by rw [← Except.ok.inj h, extent_caret hmajor]⟩

/-- The interval of a comparator, if it has one, is its extent. -/
theorem interval_eq_ok {c : Comparator} {p : Partial} (hp : p.Spellable) {flag : Bool}
    {i : Interval} (h : c.interval p flag = .ok i) : p.Shape ∧ i = c.extent p flag := by
  unfold interval at h
  cases hmajor : Partial.isWildcard p.major with
  | false =>
    simp only [hmajor, Bool.false_eq_true, if_false] at h
    exact band_eq_ok hp hmajor h
  | true =>
    simp only [hmajor, if_true] at h
    obtain ⟨_, hcheck, h⟩ := exists_ok_of_bind h
    have hs := Partial.shape_of_check hcheck
    refine ⟨hs, ?_⟩
    have hbottom := hs.floorBottom_of_isWildcard hmajor flag
    cases c with
    | gt | lt => rw [← Except.ok.inj h]; simp [extent, hmajor]
    | eq | ge | le | tilde | caret => rw [← Except.ok.inj h]; simp [extent, hmajor, hbottom]

end Comparator

namespace Interval

/-- The interval of a hyphen range between partial versions that stand for bands. -/
def span (low high : Partial) (includePrerelease : Bool) : Interval :=
  if Partial.isWildcard high.major then .startingAt (low.floorBottom includePrerelease)
  else if high.isExact then .closed (low.floorBottom includePrerelease) high.bottom
  else .upTo (low.floorBottom includePrerelease) (high.bandCeiling includePrerelease)

theorem lowEnd_eq_ok {low : Partial} (hlow : low.Spellable) {flag : Bool} {v : Version}
    (h : lowEnd low flag = .ok v) : low.Shape ∧ v = low.floorBottom flag := by
  unfold lowEnd at h
  split at h
  · rename_i hmajor
    obtain ⟨_, hcheck, h⟩ := exists_ok_of_bind h
    have hs := Partial.shape_of_check hcheck
    rw [hs.floorBottom_of_isWildcard hmajor]
    exact ⟨hs, (Except.ok.inj h).symm⟩
  · exact Partial.lower_eq_ok hlow h

/-- The interval of a hyphen range, if it has one, is its span. -/
theorem between_eq_ok {low high : Partial} (hlow : low.Spellable) (hhigh : high.Spellable)
    {flag : Bool} {i : Interval} (h : between low high flag = .ok i) :
    low.Shape ∧ high.Shape ∧ i = span low high flag := by
  obtain ⟨bottom, hbottom, h⟩ := exists_ok_of_bind h
  obtain ⟨hl, rfl⟩ := lowEnd_eq_ok hlow hbottom
  refine ⟨hl, ?_⟩
  unfold span
  split at h
  · rename_i hmajor
    obtain ⟨_, hcheck, h⟩ := exists_ok_of_bind h
    rw [if_pos hmajor]
    exact ⟨Partial.shape_of_check hcheck, (Except.ok.inj h).symm⟩
  · rename_i hmajor
    rw [if_neg hmajor]
    split at h
    · rename_i hexact
      obtain ⟨v, hv, h⟩ := exists_ok_of_bind h
      obtain ⟨hs, rfl⟩ := Partial.lowest_eq_ok hhigh hv
      rw [if_pos hexact]
      exact ⟨hs, (Except.ok.inj h).symm⟩
    · rename_i hexact
      obtain ⟨v, hv, h⟩ := exists_ok_of_bind h
      obtain ⟨hs, rfl⟩ := Partial.bandTop_eq_ok hhigh (by simpa using hexact) hv
      rw [if_neg hexact]
      exact ⟨hs, (Except.ok.inj h).symm⟩

end Interval

/-! ## Bounds -/

/-- Both bounds of the interval have the property. -/
structure Interval.Bounds (P : Version → Prop) (i : Interval) : Prop where
  min : P i.min
  max : ∀ top, i.max = some top → P top

/-- All versions that can be bounds of a clause about the partial version have the property. -/
structure Partial.Bounding (P : Version → Prop) (p : Partial) (includePrerelease : Bool) :
    Prop where
  empty : Interval.empty.Bounds P
  bottom : P p.bottom
  floorBottom : P (p.floorBottom includePrerelease)
  bandCeiling : P (p.bandCeiling includePrerelease)
  tildeEnd : P ((Version.release p.tildeEnd).floor includePrerelease)
  caretEnd : P ((Version.release (p.caretEnd p.base)).floor includePrerelease)

section

variable {P : Version → Prop} {low high : Version} {i : Interval} {flag : Bool}

theorem Interval.bounds_of_max_eq_none (hmax : i.max = none) (h : P i.min) : i.Bounds P :=
  ⟨h, fun top htop => absurd (hmax.symm.trans htop) (by simp)⟩

theorem Interval.bounds_of_max_eq_some (hmax : i.max = some high) (h : P i.min) (h' : P high) :
    i.Bounds P :=
  ⟨h, fun top htop => by rwa [← Option.some.inj (hmax.symm.trans htop)]⟩

/-- What holds of all possible bounds holds of those of a comparator. -/
theorem Comparator.bounds_extent {p : Partial} (h : p.Bounding P flag) (k : Comparator) :
    (k.extent p flag).Bounds P := by
  have hzero : P .zero := h.empty.max _ rfl
  by_cases hmajor : Partial.isWildcard p.major = true
  · unfold extent
    rw [if_pos hmajor]
    split
    · exact h.empty
    · exact Interval.bounds_of_max_eq_none rfl h.floorBottom
  · cases k with
    | eq =>
      simp only [extent, if_neg hmajor]
      split
      · exact Interval.bounds_of_max_eq_some rfl h.bottom h.bottom
      · exact Interval.bounds_of_max_eq_some rfl h.floorBottom h.bandCeiling
    | gt =>
      simp only [extent, if_neg hmajor]
      split
      · exact Interval.bounds_of_max_eq_none rfl h.bottom
      · exact Interval.bounds_of_max_eq_none rfl h.bandCeiling
    | le =>
      simp only [extent, if_neg hmajor]
      split
      · exact Interval.bounds_of_max_eq_some rfl hzero h.bottom
      · exact Interval.bounds_of_max_eq_some rfl hzero h.bandCeiling
    | lt =>
      rw [extent_lt (by simpa using hmajor)]
      exact Interval.bounds_of_max_eq_some rfl hzero h.floorBottom
    | ge =>
      simp only [extent, if_neg hmajor]
      exact Interval.bounds_of_max_eq_none rfl h.floorBottom
    | tilde =>
      rw [extent_tilde (by simpa using hmajor)]
      exact Interval.bounds_of_max_eq_some rfl h.floorBottom h.tildeEnd
    | caret =>
      rw [extent_caret (by simpa using hmajor)]
      exact Interval.bounds_of_max_eq_some rfl h.floorBottom h.caretEnd

/-- What holds of all possible bounds holds of those of a hyphen range. -/
theorem Interval.bounds_span {low high : Partial} (hlow : low.Bounding P flag)
    (hhigh : high.Bounding P flag) : (span low high flag).Bounds P := by
  unfold span
  split
  · exact bounds_of_max_eq_none rfl hlow.floorBottom
  · split
    · exact bounds_of_max_eq_some rfl hlow.floorBottom hhigh.bottom
    · exact bounds_of_max_eq_some rfl hlow.floorBottom hhigh.bandCeiling

end

end SemverRange
