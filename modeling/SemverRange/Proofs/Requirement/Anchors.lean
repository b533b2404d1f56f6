import SemverRange.Proofs.Requirement.Bands

/-!
# Pre-releases are opt-in

Where pre-releases are not included, a segment admits one only if a leaf anchors it, and this
module says what the leaves can anchor.

**Bounds.** Of the bounds of a leaf, those that are pre-releases are the bottoms of versions that
are written out in full: a band has a release for its bottom, and every top is a release. So a
leaf anchors a version exactly if its own condition names a pre-release of that triple
(`Comparator.anchors_extent_iff`, `Interval.anchors_span_iff`).

**Carets.** A caret refuses the pre-releases of other triples than that of its lower bound, and
those of this triple lie below the bound if it is a release. So whatever a caret accepts, it
names.

Main result: `Requirement.check_prerelease_iff`.
-/

namespace SemverRange

namespace Segment

/-- All conditions of the segment contain the version. -/
def Contains (s : Segment) (includePrerelease : Bool) (v : Version) : Prop :=
  (∀ c ∈ s.comparisons, ∃ l, c.leaf includePrerelease = .ok l ∧ l.accepts v = true) ∧
    ∀ r ∈ s.hyphenRanges, ∃ l, r.leaf includePrerelease = .ok l ∧ l.accepts v = true

/-- The version of every caret is written out in full, and it is a pre-release of the triple of
`v` that is not above `v`. -/
def CaretsName (s : Segment) (v : Version) : Prop :=
  ∀ c ∈ s.comparisons, c.comparator? = some .caret →
    c.version.Names v.toTriple ∧ v.precedence c.version.bottom ≠ .lt

/-- A leaf anchors `v` exactly if a version of its own condition is written out in full and is a
pre-release of the triple of `v`. -/
def AnchorsNamed (s : Segment) (v : Version) : Prop :=
  (∀ c ∈ s.comparisons, ∀ l, c.leaf false = .ok l →
    (l.anchors v = true ↔ c.version.Names v.toTriple)) ∧
  ∀ r ∈ s.hyphenRanges, ∀ l, r.leaf false = .ok l →
    (l.anchors v = true ↔ r.low.Names v.toTriple ∨ r.high.Names v.toTriple)

end Segment

/-! ## What a leaf anchors -/

theorem Partial.boundAnchors_bottom_iff {p : Partial} (hs : p.Shape) {v : Version} :
    Leaf.boundAnchors v p.bottom = true ↔ p.Names v.toTriple := by
  constructor
  · intro h
    exact names_of_boundAnchors hs h
  · intro h
    obtain ⟨-, hpre, hbase⟩ := h
    exact Leaf.boundAnchors_iff.2 ⟨hpre, hbase⟩

theorem Comparator.anchors_extent_of_isExact {c : Comparator} {p : Partial} {v : Version}
    (hexact : p.isExact = true) (h : Leaf.boundAnchors v p.bottom = true) :
    (⟨c.extent p false, some c, false⟩ : Leaf).anchors v = true := by
  obtain ⟨hmajor, -, -⟩ := Partial.isExact_iff.1 hexact
  cases c <;> simp [extent, hmajor, hexact, Leaf.anchors, Interval.above, Interval.closed,
    Interval.startingAt, Interval.upTo, Partial.floorBottom, h]

/-- A comparator anchors what its version names. -/
theorem Comparator.anchors_extent_iff {c : Comparator} {p : Partial} (hs : p.Shape)
    {v : Version} :
    (⟨c.extent p false, some c, false⟩ : Leaf).anchors v = true ↔ p.Names v.toTriple := by
  constructor
  · intro h
    exact Partial.names_of_boundAnchors hs (anchors_of_extent h)
  · intro h
    exact anchors_extent_of_isExact h.1 ((Partial.boundAnchors_bottom_iff hs).2 h)

/-- A hyphen range anchors what its ends name. -/
theorem Interval.anchors_span_iff {low high : Partial} (hlow : low.Shape) (hhigh : high.Shape)
    {v : Version} : (⟨span low high false, none, false⟩ : Leaf).anchors v = true ↔
      low.Names v.toTriple ∨ high.Names v.toTriple := by
  constructor
  · intro h
    exact (anchors_of_span h).imp (Partial.names_of_boundAnchors hlow)
      (Partial.names_of_boundAnchors hhigh)
  · intro h
    rcases h with h | h
    · have hbottom := (Partial.boundAnchors_bottom_iff hlow).2 h
      have hmin : (span low high false).min = low.bottom := by
        unfold span
        split
        · rw [startingAt, Partial.floorBottom_false]
        · split
          · rw [closed, Partial.floorBottom_false]
          · rw [upTo, Partial.floorBottom_false]
      simp [Leaf.anchors, hmin, hbottom]
    · have hbottom := (Partial.boundAnchors_bottom_iff hhigh).2 h
      obtain ⟨hmajor, -, -⟩ := Partial.isExact_iff.1 h.1
      simp [span, hmajor, h.1, Leaf.anchors, closed, hbottom]

/-! ## Carets -/

theorem Comparator.contains_extent_caret {p : Partial} {v : Version}
    (h : (caret.extent p false).contains v = true) :
    (caret.extent p false).min = p.bottom ∧ v.precedence p.bottom ≠ .lt := by
  cases hmajor : Partial.isWildcard p.major with
  | true =>
    have hextent : caret.extent p false = .startingAt p.bottom := by
      simp [extent, hmajor, Partial.floorBottom_false]
    rw [hextent] at h ⊢
    exact ⟨rfl, Interval.contains_startingAt_iff.1 h⟩
  | false =>
    rw [extent_caret hmajor, Partial.floorBottom_false] at h ⊢
    exact ⟨rfl, (Interval.contains_upTo_iff.1 h).1⟩

/-- A pre-release that is not below a version of its own triple is not below a release. -/
theorem Version.prerelease_ne_nil_of_not_lt {v w : Version} (hpre : v.isRelease = false)
    (htriple : v.toTriple = w.toTriple) (h : v.precedence w ≠ .lt) : w.prerelease ≠ [] := by
  intro hnil
  apply h
  rw [precedence_eq_lt_iff, hnil, comparePrerelease_nil_eq_lt_iff]
  refine .inr ⟨htriple, ?_⟩
  rwa [ne_eq, ← isRelease_iff, Bool.not_eq_true]

/-- A caret names the pre-releases that it accepts. -/
theorem Comparator.names_of_caret {p : Partial} (hs : p.Shape) {v : Version}
    (hpre : v.isRelease = false)
    (h : (⟨caret.extent p false, some .caret, false⟩ : Leaf).accepts v = true) :
    p.Names v.toTriple ∧ v.precedence p.bottom ≠ .lt := by
  obtain ⟨hrefuses, hcontains⟩ := Bool.and_eq_true_iff.1 h
  have hnot : ¬ v.Included false := by simp [Version.Included, hpre]
  obtain ⟨hmin, hlow⟩ := contains_extent_caret hcontains
  have htriple : v.toTriple = p.bottom.toTriple := by
    rw [← hmin]
    exact Leaf.toTriple_eq_of_caret hnot (by simpa using hrefuses)
  have hbottom : p.prerelease ≠ [] := Version.prerelease_ne_nil_of_not_lt hpre htriple hlow
  have hanchors := Leaf.boundAnchors_iff.2 ⟨hbottom, htriple.symm⟩
  exact ⟨(Partial.boundAnchors_bottom_iff hs).1 hanchors, hlow⟩

/-! ## Segments -/

namespace Segment

variable {s : Segment} {flag : Bool} {v : Version}

theorem Built.contains_iff (hs : s.Built flag) :
    s.Contains flag v ↔ ∀ l, s.HasLeaf flag l → l.accepts v = true := by
  constructor
  · intro h l hl
    rcases hs.hasLeaf_iff.1 hl with ⟨c, hc, hleaf⟩ | ⟨r, hr, hleaf⟩
    · obtain ⟨l', hl', haccepts⟩ := h.1 c hc
      rwa [Except.ok.inj (hleaf.symm.trans hl')]
    · obtain ⟨l', hl', haccepts⟩ := h.2 r hr
      rwa [Except.ok.inj (hleaf.symm.trans hl')]
  · intro h
    constructor
    · intro c hc
      obtain ⟨-, k, -, hleaf⟩ := hs.comparison c hc
      exact ⟨_, hleaf, h _ (hs.hasLeaf_iff.2 (.inl ⟨c, hc, hleaf⟩))⟩
    · intro r hr
      obtain ⟨-, -, hleaf⟩ := hs.hyphenRange r hr
      exact ⟨_, hleaf, h _ (hs.hasLeaf_iff.2 (.inr ⟨r, hr, hleaf⟩))⟩

theorem Built.anchorsNamed (hs : s.Built false) : s.AnchorsNamed v := by
  constructor
  · intro c hc l hl
    obtain ⟨hshape, k, -, hleaf⟩ := hs.comparison c hc
    obtain rfl := Except.ok.inj (hl.symm.trans hleaf)
    exact Comparator.anchors_extent_iff hshape
  · intro r hr l hl
    obtain ⟨hlow, hhigh, hleaf⟩ := hs.hyphenRange r hr
    obtain rfl := Except.ok.inj (hl.symm.trans hleaf)
    exact Interval.anchors_span_iff hlow hhigh

/-- A segment that names a pre-release of the triple has a leaf that anchors it. -/
theorem Built.exists_anchors (hs : s.Built false) (h : s.Names v.toTriple) :
    ∃ l, s.HasLeaf false l ∧ l.anchors v = true := by
  rcases h with ⟨c, hc, hnames⟩ | ⟨r, hr, hnames⟩
  · obtain ⟨hshape, k, hk, -⟩ := hs.comparison c hc
    exact ⟨_, .comparison hc hk, (Comparator.anchors_extent_iff hshape).2 hnames⟩
  · obtain ⟨hlow, hhigh, -⟩ := hs.hyphenRange r hr
    exact ⟨_, .hyphenRange hr, (Interval.anchors_span_iff hlow hhigh).2 hnames⟩

/-- A segment admits what its conditions contain, if it is included or named. -/
theorem Built.admits_iff (hs : s.Built flag) :
    s.Admits flag v ↔ s.Contains flag v ∧ (v.Included flag ∨ s.Names v.toTriple) := by
  rw [Admits, ← hs.contains_iff]
  refine and_congr_right fun hcontains => ?_
  by_cases hincluded : v.Included flag
  · simp [hincluded]
  · -- without pre-releases included the anchors are the names
    obtain rfl : flag = false := by
      cases flag with
      | false => rfl
      | true => exact absurd (.inr rfl) hincluded
    constructor
    · intro h
      exact .inr (names_of_admits hs.sound ⟨hs.contains_iff.1 hcontains, h⟩ hincluded)
    · intro h
      rcases h with h | h
      · exact .inl h
      · exact .inr (hs.exists_anchors h)

theorem Built.caretsName (hs : s.Built false) (hpre : v.isRelease = false)
    (h : s.Contains false v) : s.CaretsName v := by
  intro c hc hcaret
  obtain ⟨hshape, k, hk, -⟩ := hs.comparison c hc
  obtain rfl : .caret = k := Option.some.inj (hcaret.symm.trans hk)
  exact Comparator.names_of_caret hshape hpre (hs.contains_iff.1 h _ (.comparison hc hk))

end Segment

/-! ## Requirements -/

/-- A segment accepts what it contains, if that is included or named. -/
theorem Outline.accepts_iff_contains {raw : String} {o : Outline} (ho : parse raw = .ok o)
    {flag : Bool} {c : Clause} (hc : o.clause flag = .ok c) {s : Segment} (hs : s ∈ o.segments)
    (v : Version) :
    s.Accepts flag v ↔ s.Contains flag v ∧ (v.Included flag ∨ s.Names v.toTriple) := by
  obtain ⟨d, hd⟩ := clause_of_mem hc hs
  rw [Segment.accepts_iff_admits (spelled_of_parse ho s hs) hd,
    (built_of_clause ho hc s hs).admits_iff]

namespace Requirement

/-- **A pre-release is accepted exactly by a segment that contains and names it**, unless
pre-releases are included: some version of the segment is written out in full and is a
pre-release of the same triple, and so is the version of each of its carets. -/
theorem check_prerelease_iff {raw : String} {r : Requirement} (h : build raw false = .ok r) :
    ∃ o, Outline.parse raw = .ok o ∧ (∀ s ∈ o.segments, ∀ v, s.AnchorsNamed v) ∧
      ∀ {c : Candidate} {v : Version}, c.read = .ok v → v.isRelease = false →
        (r.check c = .ok true ↔
          ∃ s ∈ o.segments, s.Contains false v ∧ s.Names v.toTriple ∧ s.CaretsName v) := by
  obtain ⟨o, d, ho, hd, rfl⟩ := build_eq_ok_iff.1 h
  have hbuilt := Outline.built_of_clause ho hd
  refine ⟨o, ho, fun s hs v => (hbuilt s hs).anchorsNamed, fun {c v} hread hpre => ?_⟩
  have hnot : ¬ v.Included false := by simp [Version.Included, hpre]
  rw [check_eq_ok_true_iff hread, accepts, Outline.accepts_clause_iff hd]
  refine exists_congr fun s => and_congr_right fun hs => ?_
  rw [Outline.accepts_iff_contains ho hd hs]
  constructor
  · intro haccepts
    obtain ⟨hcontains, hnames⟩ := haccepts
    exact ⟨hcontains, hnames.resolve_left hnot, (hbuilt s hs).caretsName hpre hcontains⟩
  · intro hnamed
    obtain ⟨hcontains, hnames, -⟩ := hnamed
    exact ⟨hcontains, .inr hnames⟩

theorem exists_segment_names_prerelease : ∃ r o,
    build "1.x || ^1.2.3-beta.2 <2" false = .ok r ∧
    Outline.parse "1.x || ^1.2.3-beta.2 <2" = .ok o ∧
    r.check (.text "1.2.3-beta.4") = .ok true ∧
    ∃ s ∈ o.segments, s.Contains false ⟨⟨1, 2, 3⟩, ["beta", "4"], []⟩ ∧
      s.Names ⟨1, 2, 3⟩ ∧ s.CaretsName ⟨⟨1, 2, 3⟩, ["beta", "4"], []⟩ := by
  obtain ⟨r, hr, haccepts⟩ : ∃ r, build "1.x || ^1.2.3-beta.2 <2" false = .ok r ∧
      r.accepts ⟨⟨1, 2, 3⟩, ["beta", "4"], []⟩ = true :=
    exists_build_of_accepts (by decide +kernel)
  have hread : (Candidate.text "1.2.3-beta.4").read = .ok ⟨⟨1, 2, 3⟩, ["beta", "4"], []⟩ := rfl
  have hcheck := (check_eq_ok_true_iff hread).2 haccepts
  obtain ⟨o, ho, -, h⟩ := check_prerelease_iff hr
  exact ⟨r, o, hr, ho, hcheck, (h hread rfl).1 hcheck⟩

end Requirement

end SemverRange
