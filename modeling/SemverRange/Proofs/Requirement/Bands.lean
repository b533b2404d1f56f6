import SemverRange.Proofs.Requirement.Meaning

/-!
# Accepted versions stay in the bands

**Bands.** A partial version after `=`, `~` or `^`, after `<=` or at the high end of a hyphen
range asks for some of its fixed numbers (`Segment.Keeps`).

**Edges.** Where pre-releases are not included the excluded top of a band is a release, and the
pre-releases of its triple lie below it (`EndsAt`). A segment admits one of them only if a version
that is written out in full names a pre-release of the same triple (`Segment.Names`). A caret
admits no pre-release of another triple than its own, so it has no such edge.

Main results: `Requirement.exists_segment_keepsOrEnds`, an accepted version keeps to all bands of
some segment up to such edges, and `Requirement.exists_accepts_edge`, edges are reached.
-/

namespace SemverRange

/-! ## Bands and edges -/

namespace Comparator

/-- The numbers of the band of a partial version that `v` has to have. -/
def Keeps (c : Comparator) (p : Partial) (v : Version) : Prop :=
  match c with
  | eq => p.isExact = false → v.Agrees p p.fixed.length
  | le => p.isExact = false → v.against p ≠ .gt
  | tilde => v.Agrees p (min p.fixed.length 2)
  | caret => v.Agrees p p.caretWidth
  | gt | lt | ge => True

/-- The band of a partial version has `t` for its excluded top triple. -/
def EndsAt (c : Comparator) (p : Partial) (t : Triple) : Prop :=
  match c with
  | eq | le => p.isExact = false ∧ t = p.bandEnd p.base
  | tilde => t = p.tildeEnd
  | gt | lt | ge | caret => False

end Comparator

/-- The comparison keeps `v` in the band of its partial version. -/
def Comparison.Keeps (c : Comparison) (v : Version) : Prop :=
  ∃ k, c.comparator? = some k ∧ k.Keeps c.version v

def Comparison.EndsAt (c : Comparison) (t : Triple) : Prop :=
  ∃ k, c.comparator? = some k ∧ k.EndsAt c.version t

/-- The hyphen range keeps `v` from going beyond the band of its high end. -/
def HyphenRange.Keeps (r : HyphenRange) (v : Version) : Prop := Comparator.le.Keeps r.high v

def HyphenRange.EndsAt (r : HyphenRange) (t : Triple) : Prop := Comparator.le.EndsAt r.high t

/-- A version written out in full is a pre-release of the triple `t`. -/
def Partial.Names (p : Partial) (t : Triple) : Prop :=
  p.isExact = true ∧ p.prerelease ≠ [] ∧ p.base = t

namespace Segment

/-- All conditions keep `v` in their bands. -/
def Keeps (s : Segment) (v : Version) : Prop :=
  (∀ c ∈ s.comparisons, c.Keeps v) ∧ ∀ r ∈ s.hyphenRanges, r.Keeps v

/-- Some partial version of the segment is a pre-release of the triple `t`. -/
def Names (s : Segment) (t : Triple) : Prop :=
  (∃ c ∈ s.comparisons, c.version.Names t) ∨ ∃ r ∈ s.hyphenRanges, r.low.Names t ∨ r.high.Names t

/-- All conditions keep `v` in their bands, but for a pre-release that is not included: if it is
named, its triple may be the excluded top of a band. -/
def KeepsOrEnds (s : Segment) (includePrerelease : Bool) (v : Version) : Prop :=
  (∀ c ∈ s.comparisons, c.Keeps v ∨
    (c.EndsAt v.toTriple ∧ ¬ v.Included includePrerelease ∧ s.Names v.toTriple)) ∧
  ∀ r ∈ s.hyphenRanges, r.Keeps v ∨
    (r.EndsAt v.toTriple ∧ ¬ v.Included includePrerelease ∧ s.Names v.toTriple)

end Segment

namespace Partial

variable {p : Partial} {v : Version} {flag : Bool}

theorem toTriple_floorBottom (p : Partial) (includePrerelease : Bool) :
    (p.floorBottom includePrerelease).toTriple = p.base := by
  unfold floorBottom
  split
  · rfl
  · rw [Version.toTriple_floor]
    rfl

theorem not_lt_base_of_floorBottom (h : v.precedence (p.floorBottom flag) ≠ .lt) :
    ¬ v.toTriple < p.base := by
  rw [ne_eq, Version.precedence_eq_lt_iff, toTriple_floorBottom] at h
  exact fun hlt => h (.inl hlt)

theorem fixed_eq_take (hs : p.Shape) : p.fixed = p.base.numbers.take p.fixed.length := by
  cases hs with
  | any hmajor => simp [fixed_any hmajor]
  | major hmajor hminor => simp [fixed_major hmajor hminor, Triple.numbers]
  | minor hmajor hminor hpatch => simp [fixed_minor hmajor hminor hpatch, Triple.numbers]
  | exact hmajor hminor hpatch => simp [fixed_exact hmajor hminor hpatch, Triple.numbers]

theorem agrees_of_toTriple_eq (hs : p.Shape) (h : v.toTriple = p.base) {k : Nat}
    (hk : k ≤ p.fixed.length) : v.Agrees p k := by
  rw [Version.Agrees, h, fixed_eq_take hs, List.take_take, Nat.min_eq_left hk]

end Partial

/-! ## Leaves -/

/-- Below the top of a band is in the band or at its edge. -/
theorem Comparator.le_keeps_or_endsAt {p : Partial} {v : Version} {flag : Bool} (hs : p.Shape)
    (hexact : p.isExact = false) (hmajor : Partial.isWildcard p.major = false)
    (hv : v.IsNatural) (h : v.precedence (p.bandCeiling flag) = .lt) :
    le.Keeps p v ∨ (le.EndsAt p v.toTriple ∧ ¬ v.Included flag) := by
  rcases Version.precedence_floor_eq_lt_iff.1 h with hlt | ⟨hedge, hnot⟩
  · left
    intro _ hgt
    exact (Partial.against_eq_gt_iff hs hexact hmajor hv).1 hgt hlt
  · exact .inr ⟨⟨hexact, hedge⟩, hnot⟩

theorem Comparator.keeps_of_isWildcard {c : Comparator} {p : Partial} {v : Version}
    (hmajor : Partial.isWildcard p.major = true) : c.Keeps p v := by
  have hfixed := Partial.fixed_any hmajor
  have hequal : v.against p = .eq := Partial.against_any hmajor
  cases c with
  | gt | lt | ge => trivial
  | le => simp [Keeps, hequal]
  | eq | tilde | caret => simp [Keeps, Version.Agrees, Partial.caretWidth, hfixed]

/-- A caret that accepts a pre-release that is not included has its triple. -/
theorem Leaf.toTriple_eq_of_caret {i : Interval} {v : Version} {flag : Bool}
    (hnot : ¬ v.Included flag) (h : (⟨i, some .caret, flag⟩ : Leaf).refusesTriple v = false) :
    v.toTriple = i.min.toTriple := by
  rw [Version.Included, not_or, Bool.not_eq_true, Bool.not_eq_true] at hnot
  simpa [refusesTriple, hnot.1, hnot.2, Version.sameTriple] using h

/-- A leaf accepts versions in its band, or at its edge. -/
theorem Comparator.keeps_or_endsAt {c : Comparator} {p : Partial} {v : Version} {flag : Bool}
    (hs : p.Shape) (hv : v.IsNatural)
    (h : (⟨c.extent p flag, some c, flag⟩ : Leaf).accepts v = true) :
    c.Keeps p v ∨ (c.EndsAt p v.toTriple ∧ ¬ v.Included flag) := by
  obtain ⟨hrefuses, hcontains⟩ := Bool.and_eq_true_iff.1 h
  cases hmajor : Partial.isWildcard p.major with
  | true => exact .inl (keeps_of_isWildcard hmajor)
  | false =>
    cases c with
    | gt | lt | ge => exact .inl trivial
    | eq =>
      cases hexact : p.isExact with
      | true => exact .inl fun hpartial => absurd (hexact.symm.trans hpartial) (by decide)
      | false =>
        rw [extent_eq hmajor hexact] at hcontains
        obtain ⟨hlow, hhigh⟩ := Interval.contains_upTo_iff.1 hcontains
        have hbase := Partial.not_lt_base_of_floorBottom hlow
        rcases Version.precedence_floor_eq_lt_iff.1 hhigh with hlt | ⟨hedge, hnot⟩
        · exact .inl fun _ => (Partial.agrees_fixed_iff hs hexact hmajor hv hbase).2 hlt
        · exact .inr ⟨⟨hexact, hedge⟩, hnot⟩
    | le =>
      cases hexact : p.isExact with
      | true => exact .inl fun hpartial => absurd (hexact.symm.trans hpartial) (by decide)
      | false =>
        rw [extent_le hmajor hexact] at hcontains
        obtain ⟨-, hhigh⟩ := Interval.contains_upTo_iff.1 hcontains
        exact le_keeps_or_endsAt hs hexact hmajor hv hhigh
    | tilde =>
      rw [extent_tilde hmajor] at hcontains
      obtain ⟨hlow, hhigh⟩ := Interval.contains_upTo_iff.1 hcontains
      have hbase := Partial.not_lt_base_of_floorBottom hlow
      rcases Version.precedence_floor_eq_lt_iff.1 hhigh with hlt | hedge
      · exact .inl ((Partial.agrees_tilde_iff hs hmajor hv hbase).2 hlt)
      · exact .inr hedge
    | caret =>
      rw [extent_caret hmajor] at hrefuses hcontains
      obtain ⟨hlow, hhigh⟩ := Interval.contains_upTo_iff.1 hcontains
      have hbase := Partial.not_lt_base_of_floorBottom hlow
      left
      -- at the edge the caret has refused every triple but its own
      rcases Version.precedence_floor_eq_lt_iff.1 hhigh with hlt | ⟨-, hnot⟩
      · exact (Partial.agrees_caret_iff hs hmajor hv hbase).2 hlt
      · have htriple := Leaf.toTriple_eq_of_caret hnot (by simpa using hrefuses)
        rw [Interval.upTo, Partial.toTriple_floorBottom] at htriple
        exact Partial.agrees_of_toTriple_eq hs htriple (Nat.min_le_right _ _)

/-- A hyphen range accepts versions in the band of its high end, or at its edge. -/
theorem HyphenRange.keeps_or_endsAt {r : HyphenRange} {v : Version} {flag : Bool}
    (hs : r.high.Shape) (hv : v.IsNatural)
    (h : (⟨Interval.span r.low r.high flag, none, flag⟩ : Leaf).accepts v = true) :
    r.Keeps v ∨ (r.EndsAt v.toTriple ∧ ¬ v.Included flag) := by
  obtain ⟨-, hcontains⟩ := Bool.and_eq_true_iff.1 h
  cases hmajor : Partial.isWildcard r.high.major with
  | true => exact .inl (Comparator.keeps_of_isWildcard hmajor)
  | false =>
    cases hexact : r.high.isExact with
    | true => exact .inl fun hpartial => absurd (hexact.symm.trans hpartial) (by decide)
    | false =>
      simp only [Interval.span, hmajor, hexact, Bool.false_eq_true, if_false,
        Interval.contains_upTo_iff] at hcontains
      exact Comparator.le_keeps_or_endsAt hs hexact hmajor hv hcontains.2

/-! ## Anchors -/

theorem Leaf.boundAnchors_release (v : Version) (t : Triple) :
    boundAnchors v (.release t) = false := rfl

theorem Partial.floorBottom_false (p : Partial) : p.floorBottom false = p.bottom := by
  unfold floorBottom
  split
  · rfl
  · rfl

theorem Partial.names_of_boundAnchors {p : Partial} {v : Version} (hs : p.Shape)
    (h : Leaf.boundAnchors v p.bottom = true) : p.Names v.toTriple := by
  obtain ⟨hpre, htriple⟩ := Leaf.boundAnchors_iff.1 h
  refine ⟨?_, hpre, htriple⟩
  cases hexact : p.isExact with
  | true => rfl
  | false => exact absurd (hs.bare hexact).1 hpre

/-- The bounds that are no releases are bottoms of partial versions. -/
theorem Comparator.anchors_of_extent {c : Comparator} {p : Partial} {v : Version}
    (h : (⟨c.extent p false, some c, false⟩ : Leaf).anchors v = true) :
    Leaf.boundAnchors v p.bottom = true := by
  cases hmajor : Partial.isWildcard p.major with
  | true =>
    cases c <;> simp [extent, hmajor, Leaf.anchors, Interval.empty, Interval.closed,
      Interval.startingAt, Leaf.boundAnchors_release, Partial.floorBottom_false] at h <;> exact h
  | false =>
    cases hexact : p.isExact <;> cases c <;> simp [extent, hmajor, hexact, Leaf.anchors,
      Interval.above, Interval.closed, Interval.startingAt, Interval.upTo, Version.zero,
      Leaf.boundAnchors_release, Partial.floorBottom_false, Partial.bandCeiling,
      Version.floor_release_false] at h <;> exact h

theorem Interval.anchors_of_span {low high : Partial} {v : Version}
    (h : (⟨span low high false, none, false⟩ : Leaf).anchors v = true) :
    Leaf.boundAnchors v low.bottom = true ∨ Leaf.boundAnchors v high.bottom = true := by
  unfold span at h
  split at h
  · simp [Leaf.anchors, startingAt, Partial.floorBottom_false] at h
    exact .inl h
  · split at h
    · simpa [Leaf.anchors, closed, Partial.floorBottom_false] using h
    · simp [Leaf.anchors, upTo, Partial.floorBottom_false, Partial.bandCeiling,
        Version.floor_release_false, Leaf.boundAnchors_release] at h
      exact .inl h

namespace Segment

/-- Only versions written out in full anchor, unless pre-releases are included. -/
theorem names_of_anchors {s : Segment} (hs : s.Sound) {v : Version} {l : Leaf}
    (hl : s.HasLeaf false l) (h : l.anchors v = true) : s.Names v.toTriple := by
  cases hl with
  | comparison hc hk =>
    have hbottom := Comparator.anchors_of_extent h
    exact .inl ⟨_, hc, Partial.names_of_boundAnchors (hs.comparison _ hc).1 hbottom⟩
  | hyphenRange hr =>
    obtain ⟨hlow, hhigh⟩ := hs.hyphenRange _ hr
    rcases Interval.anchors_of_span h with hbottom | hbottom
    · exact .inr ⟨_, hr, .inl (Partial.names_of_boundAnchors hlow hbottom)⟩
    · exact .inr ⟨_, hr, .inr (Partial.names_of_boundAnchors hhigh hbottom)⟩

theorem names_of_admits {s : Segment} (hs : s.Sound) {v : Version} {flag : Bool}
    (h : s.Admits flag v) (hnot : ¬ v.Included flag) : s.Names v.toTriple := by
  obtain ⟨-, hincluded | ⟨l, hl, hanchors⟩⟩ := h
  · exact absurd hincluded hnot
  · cases flag with
    | true => exact absurd (.inr rfl) hnot
    | false => exact names_of_anchors hs hl hanchors

/-- What a segment admits is in its bands, or a named pre-release at an edge. -/
theorem keepsOrEnds_of_admits {s : Segment} (hs : s.Sound) {v : Version} {flag : Bool}
    (hv : v.IsNatural) (h : s.Admits flag v) : s.KeepsOrEnds flag v := by
  have hnames := names_of_admits hs h
  constructor
  · intro c hc
    obtain ⟨hshape, k, hk⟩ := hs.comparison c hc
    rcases Comparator.keeps_or_endsAt hshape hv (h.1 _ (.comparison hc hk)) with
      hkeeps | ⟨hends, hnot⟩
    · exact .inl ⟨k, hk, hkeeps⟩
    · exact .inr ⟨⟨k, hk, hends⟩, hnot, hnames hnot⟩
  · intro r hr
    rcases HyphenRange.keeps_or_endsAt (hs.hyphenRange r hr).2 hv (h.1 _ (.hyphenRange hr)) with
      hkeeps | ⟨hends, hnot⟩
    · exact .inl hkeeps
    · exact .inr ⟨hends, hnot, hnames hnot⟩

end Segment

/-! ## Requirements -/

namespace Requirement

/-- **An accepted version keeps to the bands of a segment**, or is a named pre-release at the
edge of those that it leaves. -/
theorem exists_segment_keepsOrEnds {raw : String} {flag : Bool} {r : Requirement}
    (h : build raw flag = .ok r) : ∃ o, Outline.parse raw = .ok o ∧
      ∀ {c : Candidate} {v : Version}, c.read = .ok v → v.IsNatural → r.check c = .ok true →
        ∃ s ∈ o.segments, s.KeepsOrEnds flag v := by
  obtain ⟨o, ho, hsound, haccepts⟩ := exists_outline_of_build h
  refine ⟨o, ho, fun {c v} hread hv hcheck => ?_⟩
  obtain ⟨s, hs, hadmits⟩ := (haccepts v).1 ((check_eq_ok_true_iff hread).1 hcheck)
  exact ⟨s, hs, Segment.keepsOrEnds_of_admits (hsound s hs) hv hadmits⟩

theorem exists_segment_keepsOrEnds_at_edge : ∃ r o, build "~1.2 >=1.3.0-b" false = .ok r ∧
    Outline.parse "~1.2 >=1.3.0-b" = .ok o ∧ r.check (.text "1.3.0-c") = .ok true ∧
    ∃ s ∈ o.segments, s.KeepsOrEnds false ⟨⟨1, 3, 0⟩, ["c"], []⟩ := by
  obtain ⟨r, hr, haccepts⟩ : ∃ r, build "~1.2 >=1.3.0-b" false = .ok r ∧
      r.accepts ⟨⟨1, 3, 0⟩, ["c"], []⟩ = true := exists_build_of_accepts (by decide +kernel)
  have hread : (Candidate.text "1.3.0-c").read = .ok ⟨⟨1, 3, 0⟩, ["c"], []⟩ := rfl
  have hcheck := (check_eq_ok_true_iff hread).2 haccepts
  have hnatural : (⟨⟨1, 3, 0⟩, ["c"], []⟩ : Version).IsNatural :=
    Version.isNatural_of_parse (s := "1.3.0-c") hread
  obtain ⟨o, ho, h⟩ := exists_segment_keepsOrEnds hr
  exact ⟨r, o, hr, ho, hcheck, h hread hnatural hcheck⟩

/-- Edges are reached: a version of major 2 is accepted although the only segment asks for major 1.
-/
theorem exists_accepts_edge : ∃ r o, build "1.x >=2.0.0-alpha" false = .ok r ∧
    Outline.parse "1.x >=2.0.0-alpha" = .ok o ∧
    (Candidate.text "2.0.0-alpha").read = .ok ⟨⟨2, 0, 0⟩, ["alpha"], []⟩ ∧
    r.check (.text "2.0.0-alpha") = .ok true ∧
    ∀ s ∈ o.segments, ¬ s.Keeps ⟨⟨2, 0, 0⟩, ["alpha"], []⟩ := by
  obtain ⟨r, hr, haccepts⟩ : ∃ r, build "1.x >=2.0.0-alpha" false = .ok r ∧
      r.accepts ⟨⟨2, 0, 0⟩, ["alpha"], []⟩ = true := exists_build_of_accepts (by decide +kernel)
  have hread : (Candidate.text "2.0.0-alpha").read = .ok ⟨⟨2, 0, 0⟩, ["alpha"], []⟩ := rfl
  have hcheck := (check_eq_ok_true_iff hread).2 haccepts
  have hparse : Outline.parse "1.x >=2.0.0-alpha" = .ok ⟨"1.x >=2.0.0-alpha",
      [⟨[⟨none, ⟨"1", some "x", none, [], []⟩⟩,
        ⟨some ">=", ⟨"2", some "0", some "0", ["alpha"], []⟩⟩], []⟩]⟩ := rfl
  refine ⟨r, _, hr, hparse, hread, hcheck, ?_⟩
  intro s hs hkeeps
  obtain rfl := List.mem_singleton.1 hs
  obtain ⟨k, hk, hband⟩ := hkeeps.1 _ List.mem_cons_self
  obtain rfl : .eq = k := Option.some.inj hk
  have hagrees := hband (by decide)
  rw [Version.Agrees] at hagrees
  exact absurd hagrees (by decide)

end Requirement

end SemverRange
