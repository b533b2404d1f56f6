import SemverRange.Proofs.Band.Extent

/-!
# What a clause says about the numbers of a version

**Comparison** (`Version.against`). Only the numbers of a partial version before its first
wildcard are fixed. A version is compared with a partial version number by number on those, and
by precedence if all three are fixed.

**Reading** (`Comparator.Holds`). The comparators `=`, `>`, `<`, `>=` and `<=` ask for one outcome
of that comparison. A tilde moreover asks for the fixed numbers among major and minor
(`Version.Agrees`), a caret for those up to the left-most that is not zero (`caretWidth`).

**Cuts.** Both bounds of a band cut between triples: not below the base means not below the
bottom of the band, and below its end means not above the band. A tilde and a caret end where the
numbers they ask for change.

Main results: `Comparator.contains_extent_iff` and `Interval.contains_span_iff`, the intervals
have the versions for which the readings hold, as far as pre-releases are included.
-/

namespace SemverRange

/-- The three numbers in order. -/
def Triple.numbers (t : Triple) : List Int := [t.major, t.minor, t.patch]

namespace Partial

/-- The numbers before the first wildcard. -/
def fixed (p : Partial) : List Int :=
  ([some p.major, p.minor, p.patch].takeWhile (!isWildcard ·)).map value

/-- How many fixed numbers there are up to the left-most that is not zero, or in all if they are
zero. -/
def caretWidth (p : Partial) : Nat := min (p.fixed.findIdx (· != 0) + 1) p.fixed.length

end Partial

namespace Version

/-- No number is below zero. -/
def IsNatural (v : Version) : Prop := 0 ≤ v.major ∧ 0 ≤ v.minor ∧ 0 ≤ v.patch

/-- The comparison of `v` with a partial version: by precedence if all numbers of `p` are fixed,
otherwise number by number on the fixed ones. -/
def against (v : Version) (p : Partial) : Ordering :=
  if p.fixed.length = 3 then v.precedence p.bottom
  else List.compareLex Ord.compare (v.toTriple.numbers.take p.fixed.length) p.fixed

/-- The first `k` fixed numbers of `p` are those of `v`. -/
def Agrees (v : Version) (p : Partial) (k : Nat) : Prop :=
  v.toTriple.numbers.take k = p.fixed.take k

end Version

/-- A release, or a pre-release of a triple other than `0.0.0` when pre-releases are included. -/
def Version.Ordinary (v : Version) (includePrerelease : Bool) : Prop :=
  v.isRelease = true ∨ (includePrerelease = true ∧ v.toTriple ≠ ⟨0, 0, 0⟩)

/-- What a comparator says about a version. -/
def Comparator.Holds (c : Comparator) (p : Partial) (v : Version) : Prop :=
  match c with
  | eq => v.against p = .eq
  | gt => v.against p = .gt
  | lt => v.against p = .lt
  | ge => v.against p ≠ .lt
  | le => v.against p ≠ .gt
  | tilde => v.against p ≠ .lt ∧ v.Agrees p (min p.fixed.length 2)
  | caret => v.against p ≠ .lt ∧ v.Agrees p p.caretWidth

namespace Partial

variable {p : Partial} {v : Version}

/-! ## The fixed numbers of each shape -/

theorem fixed_any (hmajor : isWildcard p.major = true) : p.fixed = [] := by
  simp [fixed, hmajor]

theorem fixed_major (hmajor : isWildcard p.major = false) (hminor : isWildcard p.minor = true) :
    p.fixed = [p.base.major] := by
  simp [fixed, hmajor, hminor, base]

theorem fixed_minor (hmajor : isWildcard p.major = false) (hminor : isWildcard p.minor = false)
    (hpatch : isWildcard p.patch = true) : p.fixed = [p.base.major, p.base.minor] := by
  simp [fixed, hmajor, hminor, hpatch, base]

theorem fixed_exact (hmajor : isWildcard p.major = false) (hminor : isWildcard p.minor = false)
    (hpatch : isWildcard p.patch = false) :
    p.fixed = [p.base.major, p.base.minor, p.base.patch] := by
  simp [fixed, hmajor, hminor, hpatch, base]

theorem against_any (hmajor : isWildcard p.major = true) : v.against p = .eq := by
  simp [Version.against, fixed_any hmajor, List.compareLex]

theorem against_major (hmajor : isWildcard p.major = false) (hminor : isWildcard p.minor = true) :
    v.against p = compare v.major p.base.major := by
  simp [Version.against, fixed_major hmajor hminor, Triple.numbers, List.compareLex_cons_cons,
    List.compareLex_nil_nil]

theorem against_minor (hmajor : isWildcard p.major = false) (hminor : isWildcard p.minor = false)
    (hpatch : isWildcard p.patch = true) :
    v.against p = (compare v.major p.base.major).then (compare v.minor p.base.minor) := by
  simp [Version.against, fixed_minor hmajor hminor hpatch, Triple.numbers,
    List.compareLex_cons_cons, List.compareLex_nil_nil]

theorem against_exact (hexact : p.isExact = true) : v.against p = v.precedence p.bottom := by
  obtain ⟨hmajor, hminor, hpatch⟩ := isExact_iff.1 hexact
  rw [Version.against, fixed_exact hmajor hminor hpatch]
  rfl

theorem base_minor_eq_zero (hminor : isWildcard p.minor = true) : p.base.minor = 0 :=
  value_of_isWildcard hminor

theorem base_patch_eq_zero (hpatch : isWildcard p.patch = true) : p.base.patch = 0 :=
  value_of_isWildcard hpatch

/-! ## Cuts -/

/-- A band of more than one version has a fixed major, or a fixed major and minor. -/
theorem Shape.major_or_minor (hs : p.Shape) (hexact : p.isExact = false)
    (hmajor : isWildcard p.major = false) :
    (isWildcard p.minor = true ∧ isWildcard p.patch = true) ∨
      (isWildcard p.minor = false ∧ isWildcard p.patch = true) := by
  cases hs with
  | any hwild => simp [hmajor] at hwild
  | major _ hminor hpatch => exact .inl ⟨hminor, hpatch⟩
  | minor _ hminor hpatch => exact .inr ⟨hminor, hpatch⟩
  | exact _ hminor hpatch => simp [isExact, hmajor, hminor, hpatch] at hexact

theorem against_eq_lt_iff (hs : p.Shape) (hexact : p.isExact = false) (hv : v.IsNatural) :
    v.against p = .lt ↔ v.toTriple < p.base := by
  obtain ⟨hmajor0, hminor0, hpatch0⟩ := hv
  rw [Triple.lt_iff]
  cases hmajor : isWildcard p.major with
  | true =>
    obtain hzero : p.base = ⟨0, 0, 0⟩ := hs.base_of_isWildcard hmajor
    rw [against_any hmajor, hzero]
    simp only [reduceCtorEq, false_iff]
    omega
  | false =>
    obtain ⟨hminor, hpatch⟩ | ⟨hminor, hpatch⟩ := hs.major_or_minor hexact hmajor
    · rw [against_major hmajor hminor, base_minor_eq_zero hminor, base_patch_eq_zero hpatch,
        Int.compare_eq_lt]
      omega
    · rw [against_minor hmajor hminor hpatch, base_patch_eq_zero hpatch, Ordering.then_eq_lt,
        Int.compare_eq_lt, Int.compare_eq_eq, Int.compare_eq_lt]
      omega

theorem against_eq_gt_iff (hs : p.Shape) (hexact : p.isExact = false)
    (hmajor : isWildcard p.major = false) (hv : v.IsNatural) :
    v.against p = .gt ↔ ¬ v.toTriple < p.bandEnd p.base := by
  obtain ⟨hmajor0, hminor0, hpatch0⟩ := hv
  obtain ⟨hminor, hpatch⟩ | ⟨hminor, hpatch⟩ := hs.major_or_minor hexact hmajor
  · rw [against_major hmajor hminor, bandEnd, if_pos hminor, Triple.lt_mk_iff,
      Int.compare_eq_gt]
    omega
  · rw [against_minor hmajor hminor hpatch, bandEnd, if_neg (by simp [hminor]), if_pos hpatch,
      Triple.lt_mk_iff, Ordering.then_eq_gt, Int.compare_eq_gt, Int.compare_eq_eq,
      Int.compare_eq_gt]
    omega

/-! ## Agreement -/

theorem agrees_fixed_iff (hs : p.Shape) (hexact : p.isExact = false)
    (hmajor : isWildcard p.major = false) (hv : v.IsNatural) (hbase : ¬ v.toTriple < p.base) :
    v.Agrees p p.fixed.length ↔ v.toTriple < p.bandEnd p.base := by
  obtain ⟨hmajor0, hminor0, hpatch0⟩ := hv
  rw [Triple.lt_iff] at hbase
  rw [bandEnd, Version.Agrees]
  obtain ⟨hminor, hpatch⟩ | ⟨hminor, hpatch⟩ := hs.major_or_minor hexact hmajor
  · rw [fixed_major hmajor hminor, if_pos hminor, Triple.lt_mk_iff]
    simp [Triple.numbers]
    omega
  · rw [fixed_minor hmajor hminor hpatch, if_neg (by simp [hminor]), if_pos hpatch,
      Triple.lt_mk_iff]
    simp [Triple.numbers]
    omega

/-- Above the base, the versions up to the end of a tilde have the fixed numbers among major and
minor. -/
theorem agrees_tilde_iff (hs : p.Shape) (hmajor : isWildcard p.major = false) (hv : v.IsNatural)
    (hbase : ¬ v.toTriple < p.base) :
    v.Agrees p (min p.fixed.length 2) ↔ v.toTriple < p.tildeEnd := by
  obtain ⟨hmajor0, hminor0, hpatch0⟩ := hv
  rw [Triple.lt_iff] at hbase
  rw [tildeEnd, Version.Agrees]
  cases hs with
  | any hwild => simp [hmajor] at hwild
  | major _ hminor =>
    rw [fixed_major hmajor hminor, if_pos hminor, Triple.lt_mk_iff]
    simp [Triple.numbers]
    omega
  | minor _ hminor hpatch =>
    rw [fixed_minor hmajor hminor hpatch, if_neg (by simp [hminor]), Triple.lt_mk_iff]
    simp [Triple.numbers]
    omega
  | exact _ hminor hpatch =>
    rw [fixed_exact hmajor hminor hpatch, if_neg (by simp [hminor]), Triple.lt_mk_iff]
    simp [Triple.numbers]
    omega

theorem caretWidth_major (hmajor : isWildcard p.major = false)
    (hminor : isWildcard p.minor = true) : p.caretWidth = 1 := by
  simp [caretWidth, fixed_major hmajor hminor]

theorem caretWidth_minor (hmajor : isWildcard p.major = false)
    (hminor : isWildcard p.minor = false) (hpatch : isWildcard p.patch = true) :
    p.caretWidth = if p.base.major = 0 then 2 else 1 := by
  rw [caretWidth, fixed_minor hmajor hminor hpatch, List.findIdx_cons]
  by_cases h : p.base.major = 0
  · simp [h]
  · simp [bne_iff_ne.2 h, h]

theorem caretWidth_exact (hmajor : isWildcard p.major = false)
    (hminor : isWildcard p.minor = false) (hpatch : isWildcard p.patch = false) :
    p.caretWidth = if p.base.major = 0 then if p.base.minor = 0 then 3 else 2 else 1 := by
  rw [caretWidth, fixed_exact hmajor hminor hpatch, List.findIdx_cons, List.findIdx_cons]
  by_cases h : p.base.major = 0
  · by_cases h' : p.base.minor = 0
    · simp [h, h']
    · simp [h, bne_iff_ne.2 h', h']
  · simp [bne_iff_ne.2 h, h]

/-- Above the base, the versions up to the end of a caret have the fixed numbers up to the
left-most that is not zero. -/
theorem agrees_caret_iff (hs : p.Shape) (hmajor : isWildcard p.major = false) (hv : v.IsNatural)
    (hbase : ¬ v.toTriple < p.base) :
    v.Agrees p p.caretWidth ↔ v.toTriple < p.caretEnd p.base := by
  obtain ⟨hmajor0, hminor0, hpatch0⟩ := hv
  have hnonneg : 0 ≤ p.base.major ∧ 0 ≤ p.base.minor ∧ 0 ≤ p.base.patch :=
    ⟨value_nonneg _, value_nonneg _, value_nonneg _⟩
  rw [Triple.lt_iff] at hbase
  -- `caretWidth` goes by the shape and `caretEnd` by the numbers, so both are split
  simp only [caretEnd, Version.Agrees, Triple.eq_iff]
  cases hs with
  | any hwild => simp [hmajor] at hwild
  | major _ hminor hpatch =>
    rw [caretWidth_major hmajor hminor, fixed_major hmajor hminor]
    have hm := base_minor_eq_zero hminor
    have hp := base_patch_eq_zero hpatch
    by_cases h : p.base.major = 0
    · simp [h, hm, hp, hminor, Triple.numbers, Triple.lt_mk_iff]
      omega
    · have hpos : 0 < p.base.major := by omega
      simp [h, hpos, Triple.numbers, Triple.lt_mk_iff]
      omega
  | minor _ hminor hpatch =>
    rw [caretWidth_minor hmajor hminor hpatch, fixed_minor hmajor hminor hpatch]
    have hp := base_patch_eq_zero hpatch
    by_cases h : p.base.major = 0
    · by_cases h' : p.base.minor = 0
      · simp [h, h', hp, hminor, hpatch, Triple.numbers, Triple.lt_mk_iff]
        omega
      · simp [h, h', Triple.numbers, Triple.lt_mk_iff]
        omega
    · have hpos : 0 < p.base.major := by omega
      simp [h, hpos, Triple.numbers, Triple.lt_mk_iff]
      omega
  | exact _ hminor hpatch =>
    rw [caretWidth_exact hmajor hminor hpatch, fixed_exact hmajor hminor hpatch]
    by_cases h : p.base.major = 0
    · by_cases h' : p.base.minor = 0
      · simp [h, h', hminor, hpatch, Triple.numbers, Triple.lt_mk_iff]
        omega
      · simp [h, h', Triple.numbers, Triple.lt_mk_iff]
        omega
    · have hpos : 0 < p.base.major := by omega
      simp [h, hpos, Triple.numbers, Triple.lt_mk_iff]
      omega

/-! ## Bounds -/

theorem precedence_floorBottom_eq_lt_iff (hs : p.Shape) (hv : v.IsNatural) {flag : Bool}
    (hincluded : v.Included flag) :
    v.precedence (p.floorBottom flag) = .lt ↔ v.against p = .lt := by
  cases hexact : p.isExact with
  | true => rw [floorBottom, if_pos hexact, against_exact hexact]
  | false =>
    rw [hs.floorBottom_of_not_isExact hexact, Version.precedence_floor_eq_lt_iff,
      against_eq_lt_iff hs hexact hv]
    simp [hincluded]

theorem precedence_bandCeiling_eq_lt_iff (hs : p.Shape) (hexact : p.isExact = false)
    (hmajor : isWildcard p.major = false) (hv : v.IsNatural) {flag : Bool}
    (hincluded : v.Included flag) :
    v.precedence (p.bandCeiling flag) = .lt ↔ v.against p ≠ .gt := by
  rw [bandCeiling, Version.precedence_floor_eq_lt_iff, ne_eq,
    against_eq_gt_iff hs hexact hmajor hv]
  simp [hincluded]

theorem not_lt_base_of_against (hs : p.Shape) (hv : v.IsNatural) (h : v.against p ≠ .lt) :
    ¬ v.toTriple < p.base := by
  cases hexact : p.isExact with
  | true =>
    rw [against_exact hexact, ne_eq, Version.precedence_eq_lt_iff] at h
    exact fun hlt => h (.inl hlt)
  | false => rwa [ne_eq, against_eq_lt_iff hs hexact hv] at h

end Partial

/-! ## Intervals -/

namespace Interval

variable {low high v : Version}

theorem contains_startingAt_iff :
    (startingAt low).contains v = true ↔ v.precedence low ≠ .lt := by
  simp [contains, startingAt, aboveMin, belowMax, Version.ge_eq_true_iff]

theorem contains_above_iff : (above low).contains v = true ↔ v.precedence low = .gt := by
  simp [contains, above, aboveMin, belowMax, Version.gt_eq_true_iff]

theorem contains_closed_iff : (closed low high).contains v = true ↔
    v.precedence low ≠ .lt ∧ v.precedence high ≠ .gt := by
  simp [contains, closed, aboveMin, belowMax, Version.ge_eq_true_iff, Version.le_eq_true_iff]

theorem contains_upTo_iff : (upTo low high).contains v = true ↔
    v.precedence low ≠ .lt ∧ v.precedence high = .lt := by
  simp [contains, upTo, aboveMin, belowMax, Version.ge_eq_true_iff, Version.lt_eq_true_iff]

theorem contains_empty (v : Version) : empty.contains v = false := by
  rw [← Bool.not_eq_true]
  intro h
  obtain ⟨hlow, hhigh⟩ := contains_closed_iff.1 h
  rw [ne_eq, Version.precedence_eq_lt_iff, not_or] at hlow
  rw [ne_eq, Version.precedence_eq_gt_iff, not_or] at hhigh
  obtain ⟨hlow, -⟩ := hlow
  obtain ⟨hhigh, -⟩ := hhigh
  simp only [Version.release, Triple.lt_iff] at hlow hhigh
  omega

end Interval

namespace Version

variable {v : Version} {flag : Bool}

theorem Ordinary.included (h : v.Ordinary flag) : v.Included flag := h.imp_right And.left

theorem precedence_zero_eq_lt_iff (hv : v.IsNatural) :
    v.precedence .zero = .lt ↔ v.toTriple = ⟨0, 0, 0⟩ ∧ v.isRelease = false := by
  obtain ⟨hmajor0, hminor0, hpatch0⟩ := hv
  rw [Version.zero, precedence_release_eq_lt_iff, Triple.lt_mk_iff]
  exact or_iff_right (by omega)

/-- No ordinary version is below the lowest release. -/
theorem Ordinary.precedence_zero_ne_lt (h : v.Ordinary flag) (hv : v.IsNatural) :
    v.precedence .zero ≠ .lt := by
  rw [ne_eq, precedence_zero_eq_lt_iff hv]
  rintro ⟨hzero, hpre⟩
  rcases h with h | ⟨-, h⟩
  · rw [h] at hpre
    exact absurd hpre (by decide)
  · exact h hzero

theorem precedence_zero_ne_lt_iff (hv : v.IsNatural) :
    v.precedence .zero ≠ .lt ↔ v.Ordinary true := by
  rw [ne_eq, precedence_zero_eq_lt_iff hv, Ordinary]
  cases v.isRelease <;> simp

end Version

/-! ## The readings -/

/-- The interval starts at the lowest release of all, and not at its floor. -/
def Comparator.StartsAtZero (c : Comparator) (p : Partial) : Prop :=
  (c = lt ∨ c = le) ∧ Partial.isWildcard p.major = false

/-- A comparator's interval has the included versions of which its reading holds, except that one
which starts at the lowest release has nothing below it. -/
theorem Comparator.contains_extent_iff_of_included {c : Comparator} {p : Partial} {v : Version}
    {flag : Bool} (hs : p.Shape) (hv : v.IsNatural) (h : v.Included flag) :
    (c.extent p flag).contains v = true ↔
      c.Holds p v ∧ (c.StartsAtZero p → v.precedence .zero ≠ .lt) := by
  have hbottom := p.precedence_floorBottom_eq_lt_iff hs hv h
  cases hmajor : Partial.isWildcard p.major with
  | true =>
    have hequal : v.against p = .eq := Partial.against_any hmajor
    have hfixed := Partial.fixed_any hmajor
    rw [hequal] at hbottom
    cases c with
    | gt | lt =>
      simp [extent, hmajor, Interval.contains_empty, Holds, hequal]
    | eq | ge | le =>
      simp [extent, hmajor, Interval.contains_startingAt_iff, Holds, hequal, hbottom, StartsAtZero]
    | tilde | caret =>
      simp [extent, hmajor, Interval.contains_startingAt_iff, Holds, hequal, hbottom,
        Version.Agrees, Partial.caretWidth, hfixed, StartsAtZero]
  | false =>
    -- the tops of a tilde and a caret say something about the numbers only above the base
    have hbase := Partial.not_lt_base_of_against hs hv
    cases c with
    | lt =>
      simp [extent, hmajor, Interval.contains_upTo_iff, Holds, hbottom, StartsAtZero, and_comm]
    | ge => simp [extent, hmajor, Interval.contains_startingAt_iff, Holds, hbottom, StartsAtZero]
    | tilde =>
      have hstart : ¬ tilde.StartsAtZero p := by simp [StartsAtZero]
      rw [extent_tilde hmajor, Interval.contains_upTo_iff, ne_eq, hbottom]
      simp only [hstart, false_implies, and_true]
      refine and_congr_right fun hlow => ?_
      rw [Version.precedence_floor_eq_lt_iff, Partial.agrees_tilde_iff hs hmajor hv (hbase hlow)]
      simp [h]
    | caret =>
      have hstart : ¬ caret.StartsAtZero p := by simp [StartsAtZero]
      rw [extent_caret hmajor, Interval.contains_upTo_iff, ne_eq, hbottom]
      simp only [hstart, false_implies, and_true]
      refine and_congr_right fun hlow => ?_
      rw [Version.precedence_floor_eq_lt_iff, Partial.agrees_caret_iff hs hmajor hv (hbase hlow)]
      simp [h]
    | eq | gt | le =>
      have hends : v.against p = .eq ↔ v.against p ≠ .lt ∧ v.against p ≠ .gt := by
        cases v.against p <;> simp
      cases hexact : p.isExact with
      | true =>
        have hagainst : v.against p = v.precedence p.bottom := Partial.against_exact hexact
        simp [extent, hmajor, hexact, Holds, Interval.contains_closed_iff,
          Interval.contains_above_iff, ← hagainst, hends, StartsAtZero, and_comm]
      | false =>
        have hceiling := Partial.precedence_bandCeiling_eq_lt_iff hs hexact hmajor hv h
        simp [extent, hmajor, hexact, Holds, Interval.contains_upTo_iff,
          Interval.contains_startingAt_iff, hbottom, hceiling, hends, StartsAtZero, and_comm]

/-- A comparator's interval has the ordinary versions of which its reading holds. -/
theorem Comparator.contains_extent_iff {c : Comparator} {p : Partial} {v : Version} {flag : Bool}
    (hs : p.Shape) (hv : v.IsNatural) (h : v.Ordinary flag) :
    (c.extent p flag).contains v = true ↔ c.Holds p v := by
  rw [contains_extent_iff_of_included hs hv h.included]
  exact and_iff_left fun _ => h.precedence_zero_ne_lt hv

/-- The interval of a hyphen range has the versions from its low to its high end. -/
theorem Interval.contains_span_iff {low high : Partial} {v : Version} {flag : Bool}
    (hlow : low.Shape) (hhigh : high.Shape) (hv : v.IsNatural) (h : v.Ordinary flag) :
    (span low high flag).contains v = true ↔ v.against low ≠ .lt ∧ v.against high ≠ .gt := by
  have hbottom := low.precedence_floorBottom_eq_lt_iff hlow hv h.included
  cases hmajor : Partial.isWildcard high.major with
  | true =>
    have hequal : v.against high = .eq := Partial.against_any hmajor
    simp [span, hmajor, contains_startingAt_iff, hbottom, hequal]
  | false =>
    cases hexact : high.isExact with
    | true =>
      have hagainst : v.against high = v.precedence high.bottom := Partial.against_exact hexact
      simp [span, hmajor, hexact, contains_closed_iff, hbottom, hagainst]
    | false =>
      have hceiling :=
        Partial.precedence_bandCeiling_eq_lt_iff hhigh hexact hmajor hv h.included
      simp [span, hmajor, hexact, contains_upTo_iff, hbottom, hceiling]

end SemverRange
