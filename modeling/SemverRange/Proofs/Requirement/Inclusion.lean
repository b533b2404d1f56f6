import SemverRange.Proofs.Requirement.Anchors
import SemverRange.Proofs.Requirement.Choice
import SemverRange.Proofs.Requirement.Outcome

/-!
# Including pre-releases

Two runs on the same text are compared, one that includes pre-releases and one that does not.

**Accepting.** Included pre-releases need no anchor and no caret refuses them, and the derived
lower bounds sink. But the derived tops sink as well, and where a clause ends below such a top
(`EndsBelow`), the pre-releases of its triple are inside without the flag and outside with it. All
else that a leaf contains without the flag it contains with it (`Comparator.contains_true_iff`).

**Filtering and choosing** follow: what the flag does not leave out (`Outline.LeavesOut`) stays,
in its order, and the highest version is no lower.

Main results: `Requirement.accepts_of_not_leavesOut`, and `Requirement.exists_left_out`, versions
are left out.
-/

namespace SemverRange

/-! ## Derived tops -/

/-- The interval of a comparator has an excluded top that is not written out in full, and `t` is
its triple. -/
def Comparator.EndsBelow (c : Comparator) (p : Partial) (t : Triple) : Prop :=
  Partial.isWildcard p.major = false ∧
    match c with
    | eq | le => p.isExact = false ∧ t = p.bandEnd p.base
    | lt => p.isExact = false ∧ t = p.base
    | tilde => t = p.tildeEnd
    | caret => t = p.caretEnd p.base
    | gt | ge => False

def Comparison.EndsBelow (c : Comparison) (t : Triple) : Prop :=
  ∃ k, c.comparator? = some k ∧ k.EndsBelow c.version t

def HyphenRange.EndsBelow (r : HyphenRange) (t : Triple) : Prop :=
  Comparator.le.EndsBelow r.high t

/-- Some condition of the segment ends below the triple `t`. -/
def Segment.EndsBelow (s : Segment) (t : Triple) : Prop :=
  (∃ c ∈ s.comparisons, c.EndsBelow t) ∨ ∃ r ∈ s.hyphenRanges, r.EndsBelow t

/-- Including pre-releases may leave `v` out: it is a pre-release, and each segment that accepts
it otherwise ends below its triple. -/
def Outline.LeavesOut (o : Outline) (v : Version) : Prop :=
  v.isRelease = false ∧ ∀ s ∈ o.segments, s.Accepts false v → s.EndsBelow v.toTriple

/-! ## Bounds -/

namespace Version

variable {v : Version} {t : Triple}

theorem included_true (v : Version) : v.Included true := .inr rfl

/-- A derived top keeps the versions below it, but for the pre-releases of its triple. -/
theorem lt_floor_true_iff (h : v.precedence ((release t).floor false) = .lt) :
    v.precedence ((release t).floor true) = .lt ↔ ¬ (v.isRelease = false ∧ v.toTriple = t) := by
  rw [precedence_floor_eq_lt_iff] at h ⊢
  simp only [included_true, not_true, and_false, or_false]
  rcases h with hlt | ⟨rfl, hnot⟩
  · have hne : v.toTriple ≠ t := by
      rintro rfl
      rw [Triple.lt_iff] at hlt
      omega
    simp [hlt, hne]
  · have hpre : v.isRelease = false := by
      rw [Included, not_or] at hnot
      simpa using hnot.1
    rw [Triple.lt_iff]
    simp only [hpre, and_self, not_true, iff_false]
    omega

theorem not_lt_floor_true (h : v.precedence ((release t).floor false) ≠ .lt) :
    v.precedence ((release t).floor true) ≠ .lt := by
  rw [ne_eq, precedence_floor_eq_lt_iff] at h ⊢
  simp only [included_true, not_true, and_false, or_false]
  exact fun hlt => h (.inl hlt)

end Version

theorem Partial.not_lt_floorBottom_true {p : Partial} (hs : p.Shape) {v : Version}
    (h : v.precedence (p.floorBottom false) ≠ .lt) :
    v.precedence (p.floorBottom true) ≠ .lt := by
  cases hexact : p.isExact with
  | true =>
    rw [floorBottom, if_pos hexact] at h ⊢
    exact h
  | false =>
    rw [hs.floorBottom_of_not_isExact hexact] at h ⊢
    exact Version.not_lt_floor_true h

/-! ## Leaves -/

/-- Below a derived top an interval that sinks with it keeps its versions, but for the pre-releases
of the triple of the top. -/
theorem Interval.contains_upTo_floor_iff {low low' v : Version} {t : Triple}
    (hlow : v.precedence low ≠ .lt → v.precedence low' ≠ .lt)
    (h : (upTo low ((Version.release t).floor false)).contains v = true) :
    (upTo low' ((Version.release t).floor true)).contains v = true ↔
      ¬ (v.isRelease = false ∧ v.toTriple = t) := by
  rw [contains_upTo_iff] at h ⊢
  rw [Version.lt_floor_true_iff h.2]
  exact and_iff_right (hlow h.1)

theorem Comparator.not_endsBelow_of_isWildcard {c : Comparator} {p : Partial} {t : Triple}
    (hmajor : Partial.isWildcard p.major = true) : ¬ c.EndsBelow p t := by
  intro h
  rw [h.1] at hmajor
  exact absurd hmajor (by decide)

/-- Without a number, the interval of a comparator is everything from its lower bound on. -/
theorem Comparator.contains_true_of_isWildcard {c : Comparator} {p : Partial} (hs : p.Shape)
    (hmajor : Partial.isWildcard p.major = true) {v : Version}
    (h : (c.extent p false).contains v = true) : (c.extent p true).contains v = true := by
  simp only [extent, hmajor, if_true] at h ⊢
  split at h
  · rw [Interval.contains_empty] at h
    exact absurd h (by decide)
  · rename_i hc
    rw [if_neg hc]
    rw [Interval.contains_startingAt_iff] at h ⊢
    exact p.not_lt_floorBottom_true hs h

/-- Bounds that are written out in full do not move. -/
theorem Comparator.contains_true_iff_of_isExact {c : Comparator} {p : Partial}
    (hexact : p.isExact = true) (hc : c ≠ tilde ∧ c ≠ caret) {v : Version}
    (h : (c.extent p false).contains v = true) :
    (c.extent p true).contains v = true ↔ ¬ (v.isRelease = false ∧ c.EndsBelow p v.toTriple) := by
  have hextent : c.extent p true = c.extent p false := by
    cases c with
    | tilde => exact absurd rfl hc.1
    | caret => exact absurd rfl hc.2
    | eq | gt | lt | ge | le => simp [extent, hexact, Partial.floorBottom]
  have hends : ¬ c.EndsBelow p v.toTriple := by
    cases c with
    | tilde => exact absurd rfl hc.1
    | caret => exact absurd rfl hc.2
    | eq | gt | lt | ge | le => simp [EndsBelow, hexact]
  simp [hextent, h, hends]

/-- What a comparator contains without the flag it contains with it, unless it ends below. -/
theorem Comparator.contains_true_iff {c : Comparator} {p : Partial} (hs : p.Shape) {v : Version}
    (h : (c.extent p false).contains v = true) :
    (c.extent p true).contains v = true ↔ ¬ (v.isRelease = false ∧ c.EndsBelow p v.toTriple) := by
  have hlow := p.not_lt_floorBottom_true hs (v := v)
  cases hmajor : Partial.isWildcard p.major with
  | true => simp [contains_true_of_isWildcard hs hmajor h, not_endsBelow_of_isWildcard hmajor]
  | false =>
    cases c with
    | ge =>
      simp only [extent, hmajor, Bool.false_eq_true, if_false,
        Interval.contains_startingAt_iff] at h ⊢
      simp [EndsBelow, hlow h]
    | tilde =>
      rw [extent_tilde hmajor] at h ⊢
      exact (Interval.contains_upTo_floor_iff hlow h).trans (by simp [EndsBelow, hmajor])
    | caret =>
      rw [extent_caret hmajor] at h ⊢
      exact (Interval.contains_upTo_floor_iff hlow h).trans (by simp [EndsBelow, hmajor])
    | eq =>
      cases hexact : p.isExact with
      | true => exact contains_true_iff_of_isExact hexact (by decide) h
      | false =>
        rw [extent_eq hmajor hexact] at h ⊢
        exact (Interval.contains_upTo_floor_iff hlow h).trans (by simp [EndsBelow, hmajor, hexact])
    | le =>
      cases hexact : p.isExact with
      | true => exact contains_true_iff_of_isExact hexact (by decide) h
      | false =>
        rw [extent_le hmajor hexact] at h ⊢
        exact (Interval.contains_upTo_floor_iff id h).trans (by simp [EndsBelow, hmajor, hexact])
    | lt =>
      cases hexact : p.isExact with
      | true => exact contains_true_iff_of_isExact hexact (by decide) h
      | false =>
        rw [extent_lt hmajor, hs.floorBottom_of_not_isExact hexact] at h ⊢
        exact (Interval.contains_upTo_floor_iff id h).trans (by simp [EndsBelow, hmajor, hexact])
    | gt =>
      cases hexact : p.isExact with
      | true => exact contains_true_iff_of_isExact hexact (by decide) h
      | false =>
        rw [extent_gt hmajor hexact, Interval.contains_startingAt_iff] at h ⊢
        have hceiling : v.precedence (p.bandCeiling true) ≠ .lt := Version.not_lt_floor_true h
        simp [EndsBelow, hceiling]

theorem HyphenRange.contains_true_iff {r : HyphenRange} (hlow : r.low.Shape) {v : Version}
    (h : (Interval.span r.low r.high false).contains v = true) :
    (Interval.span r.low r.high true).contains v = true ↔
      ¬ (v.isRelease = false ∧ r.EndsBelow v.toTriple) := by
  have hbottom := r.low.not_lt_floorBottom_true hlow (v := v)
  cases hmajor : Partial.isWildcard r.high.major with
  | true =>
    have hends : ¬ r.EndsBelow v.toTriple := Comparator.not_endsBelow_of_isWildcard hmajor
    simp only [Interval.span, hmajor, if_true, Interval.contains_startingAt_iff] at h ⊢
    simp [hbottom h, hends]
  | false =>
    cases hexact : r.high.isExact with
    | true =>
      simp only [Interval.span, hmajor, hexact, Bool.false_eq_true, if_true, if_false,
        Interval.contains_closed_iff] at h ⊢
      simp [EndsBelow, Comparator.EndsBelow, hexact, hbottom h.1, h.2]
    | false =>
      simp only [Interval.span, hmajor, hexact, Bool.false_eq_true, if_false] at h ⊢
      exact (Interval.contains_upTo_floor_iff hbottom h).trans
        (by simp [EndsBelow, Comparator.EndsBelow, hmajor, hexact])

theorem Leaf.contains_of_accepts {i : Interval} {k : Option Comparator} {flag : Bool} {v : Version}
    (h : (⟨i, k, flag⟩ : Leaf).accepts v = true) : i.contains v = true :=
  (Bool.and_eq_true_iff.1 h).2

theorem Leaf.accepts_true (i : Interval) (k : Option Comparator) (v : Version) :
    (⟨i, k, true⟩ : Leaf).accepts v = i.contains v :=
  Leaf.accepts_of_included (l := ⟨i, k, true⟩) v.included_true

/-- The leaf of a comparison that accepts a version without the flag accepts it with the flag,
unless it ends below. -/
theorem Comparison.accepts_true_iff {c : Comparison} {k : Comparator} (hs : c.version.Shape)
    (hk : c.comparator? = some k) {v : Version}
    (h : (⟨k.extent c.version false, some k, false⟩ : Leaf).accepts v = true) :
    (⟨k.extent c.version true, some k, true⟩ : Leaf).accepts v = true ↔
      ¬ (v.isRelease = false ∧ c.EndsBelow v.toTriple) := by
  have hcontains : (k.extent c.version false).contains v = true := Leaf.contains_of_accepts h
  have hends : c.EndsBelow v.toTriple ↔ k.EndsBelow c.version v.toTriple := by
    simp [EndsBelow, hk]
  rw [Leaf.accepts_true, Comparator.contains_true_iff hs hcontains, hends]

theorem HyphenRange.accepts_true_iff {r : HyphenRange} (hlow : r.low.Shape) {v : Version}
    (h : (⟨Interval.span r.low r.high false, none, false⟩ : Leaf).accepts v = true) :
    (⟨Interval.span r.low r.high true, none, true⟩ : Leaf).accepts v = true ↔
      ¬ (v.isRelease = false ∧ r.EndsBelow v.toTriple) := by
  have hcontains : (Interval.span r.low r.high false).contains v = true :=
    Leaf.contains_of_accepts h
  rw [Leaf.accepts_true, HyphenRange.contains_true_iff hlow hcontains]

/-! ## Segments -/

namespace Segment

/-- What a segment contains without the flag it contains with it, unless it ends below. -/
theorem contains_true_iff {s : Segment} (hoff : s.Built false) (hon : s.Built true) {v : Version}
    (h : s.Contains false v) :
    s.Contains true v ↔ ¬ (v.isRelease = false ∧ s.EndsBelow v.toTriple) := by
  rw [hoff.contains_iff] at h
  rw [hon.contains_iff]
  constructor
  · intro hcontains hleft
    obtain ⟨hpre, ⟨c, hc, k, hk, hends⟩ | ⟨r, hr, hends⟩⟩ := hleft
    · have hleaf :=
        Comparison.accepts_true_iff (hoff.comparison c hc).1 hk (h _ (.comparison hc hk))
      exact hleaf.1 (hcontains _ (.comparison hc hk)) ⟨hpre, k, hk, hends⟩
    · have hleaf := HyphenRange.accepts_true_iff (hoff.hyphenRange r hr).1 (h _ (.hyphenRange hr))
      exact hleaf.1 (hcontains _ (.hyphenRange hr)) ⟨hpre, hends⟩
  · intro hkept l hl
    cases hl with
    | @comparison c k hc hk =>
      apply (Comparison.accepts_true_iff (hoff.comparison c hc).1 hk (h _ (.comparison hc hk))).2
      exact fun hleft => hkept ⟨hleft.1, .inl ⟨c, hc, hleft.2⟩⟩
    | @hyphenRange r hr =>
      apply (HyphenRange.accepts_true_iff (hoff.hyphenRange r hr).1 (h _ (.hyphenRange hr))).2
      exact fun hleft => hkept ⟨hleft.1, .inr ⟨r, hr, hleft.2⟩⟩

end Segment

/-! ## Requirements -/

/-- A pre-release that is not left out is accepted by a segment that does not end below it. -/
theorem Outline.exists_of_not_leavesOut {o : Outline} {v : Version} (hpre : v.isRelease = false)
    (h : ¬ o.LeavesOut v) : ∃ s ∈ o.segments, s.Accepts false v ∧ ¬ s.EndsBelow v.toTriple := by
  apply Classical.byContradiction
  intro hall
  apply h
  refine ⟨hpre, fun s hs hsv => ?_⟩
  apply Classical.byContradiction
  intro hends
  exact hall ⟨s, hs, hsv, hends⟩

theorem Outline.accepts_true_iff {raw : String} {o : Outline} (ho : parse raw = .ok o)
    {off on : Clause} (hoff : o.clause false = .ok off) (hon : o.clause true = .ok on)
    {s : Segment} (hs : s ∈ o.segments) {v : Version} (h : s.Accepts false v) :
    s.Accepts true v ↔ ¬ (v.isRelease = false ∧ s.EndsBelow v.toTriple) := by
  rw [accepts_iff_contains ho hoff hs] at h
  rw [accepts_iff_contains ho hon hs, and_iff_left (.inl v.included_true)]
  exact Segment.contains_true_iff (built_of_clause ho hoff s hs) (built_of_clause ho hon s hs) h.1

namespace Requirement

/-- **Including pre-releases only adds matches, but for the pre-releases it leaves out.** The text
can be built with the flag and without it. What is accepted without the flag and not left out is
accepted with it, so filtered candidates stay in order and the highest is no lower. A segment
that accepts a version without the flag accepts it with the flag unless the version is a
pre-release and the segment ends below its triple. -/
theorem accepts_of_not_leavesOut {raw : String} {flag : Bool} {r : Requirement}
    (h : build raw flag = .ok r) : ∃ o off on, Outline.parse raw = .ok o ∧
      build raw false = .ok off ∧ build raw true = .ok on ∧
      (∀ v, off.accepts v = true → ¬ o.LeavesOut v → on.accepts v = true) ∧
      (∀ (cs : List Candidate) (vs : List Version), vs.Sublist (off.filter cs) →
        (∀ v ∈ vs, ¬ o.LeavesOut v) → vs.Sublist (on.filter cs)) ∧
      (∀ cs m, off.maxSatisfying cs = some m → ¬ o.LeavesOut m →
        ∃ m', on.maxSatisfying cs = some m' ∧ m.le m' = true) ∧
      ∀ s ∈ o.segments, ∀ v, s.Accepts false v →
        (s.Accepts true v ↔ ¬ (v.isRelease = false ∧ s.EndsBelow v.toTriple)) := by
  obtain ⟨off, hoff⟩ := (build_alike flag false raw).exists_ok h
  obtain ⟨on, hon⟩ := (build_alike flag true raw).exists_ok h
  obtain ⟨o, c, ho, hc, rfl⟩ := build_eq_ok_iff.1 hoff
  obtain ⟨o', c', ho', hc', rfl⟩ := build_eq_ok_iff.1 hon
  obtain rfl := Except.ok.inj (ho.symm.trans ho')
  have hsegment : ∀ s ∈ o.segments, ∀ v, s.Accepts false v →
      (s.Accepts true v ↔ ¬ (v.isRelease = false ∧ s.EndsBelow v.toTriple)) :=
    fun s hs v => Outline.accepts_true_iff ho hc hc' hs
  have haccepts : ∀ v, (⟨raw, false, c⟩ : Requirement).accepts v = true → ¬ o.LeavesOut v →
      (⟨raw, true, c'⟩ : Requirement).accepts v = true := by
    intro v hv hkept
    obtain ⟨s, hs, hsv⟩ := (Outline.accepts_clause_iff hc v).1 hv
    apply (Outline.accepts_clause_iff hc' v).2
    by_cases hpre : v.isRelease = false
    · obtain ⟨s, hs, hsv, hends⟩ := Outline.exists_of_not_leavesOut hpre hkept
      exact ⟨s, hs, (hsegment s hs v hsv).2 fun hleft => hends hleft.2⟩
    · exact ⟨s, hs, (hsegment s hs v hsv).2 fun hleft => hpre hleft.1⟩
  refine ⟨o, _, _, ho, hoff, hon, haccepts, ?_, ?_, hsegment⟩
  · intro cs vs hvs hkept
    apply sublist_filter (hvs.trans List.filter_sublist)
    intro v hv
    exact haccepts v (mem_filter.1 (hvs.subset hv)).2 (hkept v hv)
  · intro cs m hm hkept
    obtain ⟨hread, hmaccepts⟩ := mem_filter.1 (firstHighest_of_highest hm).mem
    exact exists_highest_of_mem (mem_filter.2 ⟨hread, haccepts m hmaccepts hkept⟩)

theorem accepts_of_second_segment : ∃ o off on,
    Outline.parse "<2 >=2.0.0-a || >=2.0.0-b" = .ok o ∧
    build "<2 >=2.0.0-a || >=2.0.0-b" false = .ok off ∧
    build "<2 >=2.0.0-a || >=2.0.0-b" true = .ok on ∧
    off.accepts ⟨⟨2, 0, 0⟩, ["rc"], []⟩ = true ∧ ¬ o.LeavesOut ⟨⟨2, 0, 0⟩, ["rc"], []⟩ ∧
    on.accepts ⟨⟨2, 0, 0⟩, ["rc"], []⟩ = true := by
  obtain ⟨r, hr, haccepts⟩ : ∃ r, build "<2 >=2.0.0-a || >=2.0.0-b" false = .ok r ∧
      r.accepts ⟨⟨2, 0, 0⟩, ["rc"], []⟩ = true := exists_build_of_accepts (by decide +kernel)
  obtain ⟨o, off, on, ho, hoff, hon, hkept, -, -, -⟩ := accepts_of_not_leavesOut hr
  obtain rfl := Except.ok.inj (hr.symm.trans hoff)
  have hparse : Outline.parse "<2 >=2.0.0-a || >=2.0.0-b" = .ok ⟨"<2 >=2.0.0-a || >=2.0.0-b",
      [⟨[⟨some "<", ⟨"2", none, none, [], []⟩⟩,
        ⟨some ">=", ⟨"2", some "0", some "0", ["a"], []⟩⟩], []⟩,
        ⟨[⟨some ">=", ⟨"2", some "0", some "0", ["b"], []⟩⟩], []⟩]⟩ := rfl
  obtain rfl := Except.ok.inj (hparse.symm.trans ho)
  have hstays : ¬ (⟨"<2 >=2.0.0-a || >=2.0.0-b", [⟨[⟨some "<", ⟨"2", none, none, [], []⟩⟩,
        ⟨some ">=", ⟨"2", some "0", some "0", ["a"], []⟩⟩], []⟩,
      ⟨[⟨some ">=", ⟨"2", some "0", some "0", ["b"], []⟩⟩], []⟩]⟩ : Outline).LeavesOut
        ⟨⟨2, 0, 0⟩, ["rc"], []⟩ := by
    intro h
    have hends := h.2 _ (List.mem_cons_of_mem _ List.mem_cons_self) ⟨_, rfl, by decide +kernel⟩
    obtain ⟨c, hc, k, hk, hends⟩ | ⟨r, hr, -⟩ := hends
    · obtain rfl := List.mem_singleton.1 hc
      obtain rfl : .ge = k := Option.some.inj hk
      exact hends.2
    · exact absurd hr List.not_mem_nil
  exact ⟨_, r, on, ho, hr, hon, haccepts, hstays, hkept _ haccepts hstays⟩

/-- Versions are left out: a pre-release of the triple of a derived top is accepted without the flag
and refused with it. -/
theorem exists_left_out : ∃ off on, build "<2 >=2.0.0-alpha" false = .ok off ∧
    build "<2 >=2.0.0-alpha" true = .ok on ∧
    off.check (.text "2.0.0-alpha") = .ok true ∧ on.check (.text "2.0.0-alpha") = .ok false := by
  obtain ⟨off, hoff, haccepts⟩ : ∃ off, build "<2 >=2.0.0-alpha" false = .ok off ∧
      off.accepts ⟨⟨2, 0, 0⟩, ["alpha"], []⟩ = true := exists_build_of_accepts (by decide +kernel)
  obtain ⟨on, hon, hrefuses⟩ : ∃ on, build "<2 >=2.0.0-alpha" true = .ok on ∧
      on.accepts ⟨⟨2, 0, 0⟩, ["alpha"], []⟩ = false := exists_build_of_accepts (by decide +kernel)
  have hread : (Candidate.text "2.0.0-alpha").read = .ok ⟨⟨2, 0, 0⟩, ["alpha"], []⟩ := rfl
  refine ⟨off, on, hoff, hon, ?_, ?_⟩
  · rw [check_of_read hread, haccepts]
  · rw [check_of_read hread, hrefuses]

end Requirement

end SemverRange
