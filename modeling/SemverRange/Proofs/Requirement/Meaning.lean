import SemverRange.Proofs.Requirement.Build
import SemverRange.Proofs.Version.Candidate

/-!
# The meaning of a requirement

**Reading.** A comparison says of a version what its comparator says of its partial version, a
hyphen range that the version is not below its low end and not above its high end. A segment says
all that its conditions say (`Segment.Holds`).

Where pre-releases do not interfere, which is for releases, and for pre-releases of triples other
than `0.0.0` when they are included, a leaf accepts the versions of its interval, and nothing has
to anchor them.

Main result: `Requirement.check_iff_holds`.
-/

namespace SemverRange

/-- What a comparison says about a version. -/
def Comparison.Holds (c : Comparison) (v : Version) : Prop :=
  ∃ k, c.comparator? = some k ∧ k.Holds c.version v

/-- What a hyphen range says about a version. -/
def HyphenRange.Holds (r : HyphenRange) (v : Version) : Prop :=
  v.against r.low ≠ .lt ∧ v.against r.high ≠ .gt

/-- All that the conditions of a segment say about a version. -/
def Segment.Holds (s : Segment) (v : Version) : Prop :=
  (∀ c ∈ s.comparisons, c.Holds v) ∧ ∀ r ∈ s.hyphenRanges, r.Holds v

/-! ## Candidates -/

theorem Version.component?_nonneg {cs : List Char} {n : Int} (h : component? cs = some n) :
    0 ≤ n := by
  unfold component? at h
  split at h
  · exact absurd h (by simp)
  · obtain ⟨m, -, rfl⟩ := Option.map_eq_some_iff.1 h
    exact Int.natCast_nonneg m

/-- A version that was read from a text has no number below zero. -/
theorem Version.isNatural_of_parse {s : String} {v : Version} (h : parse s = .ok v) :
    v.IsNatural := by
  obtain ⟨major, minor, patch, hmajor, hminor, hpatch⟩ := exists_components_of_parse h
  exact ⟨component?_nonneg hmajor, component?_nonneg hminor, component?_nonneg hpatch⟩

/-! ## Leaves -/

theorem Leaf.accepts_of_included {l : Leaf} {v : Version} (h : v.Included l.includePrerelease) :
    l.accepts v = l.interval.contains v := by
  have hrefuses : l.refusesTriple v = false := by
    rcases h with h | h
    · simp [refusesTriple, h]
    · simp [refusesTriple, h]
  rw [accepts, hrefuses, Bool.not_false, Bool.true_and]

/-- An ordinary version is admitted by the segments that hold of it. -/
theorem Segment.admits_iff_holds {s : Segment} (hs : s.Sound) {v : Version} {flag : Bool}
    (hv : v.IsNatural) (h : v.Ordinary flag) : s.Admits flag v ↔ s.Holds v := by
  have haccepts : ∀ i k, (⟨i, k, flag⟩ : Leaf).accepts v = i.contains v := fun i k =>
    Leaf.accepts_of_included h.included
  constructor
  · rintro ⟨hall, -⟩
    constructor
    · intro c hc
      obtain ⟨hshape, k, hk⟩ := hs.comparison c hc
      have hleaf := hall _ (.comparison hc hk)
      rw [haccepts] at hleaf
      exact ⟨k, hk, (Comparator.contains_extent_iff hshape hv h).1 hleaf⟩
    · intro r hr
      obtain ⟨hlow, hhigh⟩ := hs.hyphenRange r hr
      have hleaf := hall _ (.hyphenRange hr)
      rw [haccepts] at hleaf
      exact (Interval.contains_span_iff hlow hhigh hv h).1 hleaf
  · rintro ⟨hcomparisons, hranges⟩
    refine ⟨?_, .inl h.included⟩
    rintro _ (⟨hc, hk⟩ | ⟨hr⟩)
    · rename_i c k
      obtain ⟨k', hk', hholds⟩ := hcomparisons c hc
      obtain rfl : k = k' := Option.some.inj (hk.symm.trans hk')
      rw [haccepts]
      exact (Comparator.contains_extent_iff (hs.comparison c hc).1 hv h).2 hholds
    · rename_i r
      obtain ⟨hlow, hhigh⟩ := hs.hyphenRange r hr
      rw [haccepts]
      exact (Interval.contains_span_iff hlow hhigh hv h).2 (hranges r hr)

/-! ## Requirements -/

namespace Requirement

theorem check_eq_ok_true_iff {r : Requirement} {c : Candidate} {v : Version} (h : c.read = .ok v) :
    r.check c = .ok true ↔ r.accepts v = true := by
  rw [check_of_read h, Except.ok.injEq]

/-- **A requirement accepts the ordinary candidates of which one of its segments holds.** -/
theorem check_iff_holds {raw : String} {flag : Bool} {r : Requirement}
    (h : build raw flag = .ok r) : ∃ o, Outline.parse raw = .ok o ∧
      ∀ {c : Candidate} {v : Version}, c.read = .ok v → v.IsNatural → v.Ordinary flag →
        (r.check c = .ok true ↔ ∃ s ∈ o.segments, s.Holds v) := by
  obtain ⟨o, ho, hsound, haccepts⟩ := exists_outline_of_build h
  refine ⟨o, ho, fun {c v} hread hv hordinary => ?_⟩
  rw [check_eq_ok_true_iff hread, haccepts]
  constructor
  · rintro ⟨s, hs, hadmits⟩
    exact ⟨s, hs, (Segment.admits_iff_holds (hsound s hs) hv hordinary).1 hadmits⟩
  · rintro ⟨s, hs, hholds⟩
    exact ⟨s, hs, (Segment.admits_iff_holds (hsound s hs) hv hordinary).2 hholds⟩

theorem holds_of_check_prerelease : ∃ r o, build "^1.2 || >=3" true = .ok r ∧
    Outline.parse "^1.2 || >=3" = .ok o ∧ r.check (.text "1.3.0-rc.1") = .ok true ∧
    ∃ s ∈ o.segments, s.Holds ⟨⟨1, 3, 0⟩, ["rc", "1"], []⟩ := by
  obtain ⟨r, hr, haccepts⟩ : ∃ r, build "^1.2 || >=3" true = .ok r ∧
      r.accepts ⟨⟨1, 3, 0⟩, ["rc", "1"], []⟩ = true := exists_build_of_accepts (by decide +kernel)
  obtain ⟨o, ho, h⟩ := check_iff_holds hr
  have hread : (Candidate.text "1.3.0-rc.1").read = .ok ⟨⟨1, 3, 0⟩, ["rc", "1"], []⟩ := rfl
  have hcheck := (check_eq_ok_true_iff hread).2 haccepts
  have hnatural : (⟨⟨1, 3, 0⟩, ["rc", "1"], []⟩ : Version).IsNatural :=
    Version.isNatural_of_parse (s := "1.3.0-rc.1") hread
  have hordinary : (⟨⟨1, 3, 0⟩, ["rc", "1"], []⟩ : Version).Ordinary true :=
    .inr ⟨rfl, by decide⟩
  exact ⟨r, o, hr, ho, hcheck, (h hread hnatural hordinary).1 hcheck⟩

end Requirement

end SemverRange
