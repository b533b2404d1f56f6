import SemverRange.Proofs.Requirement.Faults
import SemverRange.Proofs.Requirement.Inclusion
import SemverRange.Proofs.Requirement.Layout

/-!
# Requirements of one comparison

The symbol of a comparator in front of a partial version is a requirement of one comparison.
Whether it can be built depends on the partial version alone: the comparators notice the same
faults, and nothing can be wrong with their symbols.

**Accepting.** Of the versions that are included it accepts those of which the comparator holds. A
pre-release that is not included is opted in only if the partial version is written out in full
and names its triple. Then their numbers agree, the top of every band is out of the way, and a
caret has no triple to refuse, so that the comparator decides here as well.

Main results: `Requirement.exists_build_symbol_iff` and `Requirement.accepts_comparison_iff`.
-/

namespace SemverRange

open Text

/-! ## Leaves -/

/-- What a comparator with a version that names the triple of `v` says about `v`, is what its
interval contains. -/
theorem Comparator.contains_extent_iff_of_names {c : Comparator} {p : Partial} {v : Version}
    (hs : p.Shape) (hv : v.IsNatural) (h : p.Names v.toTriple) :
    (c.extent p false).contains v = true ↔
      c.Holds p v ∧ (c.StartsAtZero p → v.precedence .zero ≠ .lt) := by
  obtain ⟨hexact, -, hbase⟩ := h
  obtain ⟨hmajor, -, -⟩ := Partial.isExact_iff.1 hexact
  have hagainst : v.against p = v.precedence p.bottom := Partial.against_exact hexact
  have hlow : p.floorBottom false = p.bottom := p.floorBottom_false
  have hends : v.against p = .eq ↔ v.against p ≠ .lt ∧ v.against p ≠ .gt := by
    cases v.against p <;> simp
  -- the numbers of `v` are those of the base, so it has all of them and is below every top
  have hagrees : ∀ k ≤ p.fixed.length, v.Agrees p k := fun k hk =>
    Partial.agrees_of_toTriple_eq hs hbase.symm hk
  have hnot : ¬ v.toTriple < p.base := by
    rw [hbase, Triple.lt_iff]
    omega
  have hbelow : ∀ {t : Triple}, v.toTriple < t → v.precedence (Version.release t) = .lt :=
    fun ht => Version.precedence_eq_lt_iff.2 (.inl ht)
  cases c with
  | tilde =>
    have hwidth := hagrees _ (Nat.min_le_left p.fixed.length 2)
    have htop := hbelow ((Partial.agrees_tilde_iff hs hmajor hv hnot).1 hwidth)
    rw [extent_tilde hmajor, Interval.contains_upTo_iff, hlow, ← hagainst]
    simp [Holds, StartsAtZero, hwidth, Version.floor_release_false, htop]
  | caret =>
    have hwidth := hagrees p.caretWidth (Nat.min_le_right _ _)
    have htop := hbelow ((Partial.agrees_caret_iff hs hmajor hv hnot).1 hwidth)
    rw [extent_caret hmajor, Interval.contains_upTo_iff, hlow, ← hagainst]
    simp [Holds, StartsAtZero, hwidth, Version.floor_release_false, htop]
  | lt | ge =>
    simp [extent, hmajor, Interval.contains_upTo_iff, Interval.contains_startingAt_iff, hlow,
      Holds, ← hagainst, StartsAtZero, and_comm]
  | eq | gt | le =>
    simp [extent, hmajor, hexact, Holds, Interval.contains_closed_iff,
      Interval.contains_above_iff, ← hagainst, hends, StartsAtZero, and_comm]

theorem Comparator.refusesTriple_of_names {c : Comparator} {p : Partial} {v : Version}
    {flag : Bool} (h : p.Names v.toTriple) :
    (⟨c.extent p flag, some c, flag⟩ : Leaf).refusesTriple v = false := by
  obtain ⟨hexact, -, hbase⟩ := h
  obtain ⟨hmajor, -, -⟩ := Partial.isExact_iff.1 hexact
  cases c with
  | caret =>
    have hsame : v.sameTriple (caret.extent p flag).min = true := by
      rw [extent_caret hmajor, Interval.upTo, Version.sameTriple, Partial.toTriple_floorBottom,
        hbase, beq_self_eq_true]
    simp [Leaf.refusesTriple, hsame]
  | eq | gt | lt | ge | le | tilde => rfl

/-- What a leaf of one comparator accepts, of the versions that are included or named. -/
theorem Comparator.accepts_extent_iff {c : Comparator} {p : Partial} {v : Version} {flag : Bool}
    (hs : p.Shape) (hv : v.IsNatural) (h : v.Included flag ∨ p.Names v.toTriple) :
    (⟨c.extent p flag, some c, flag⟩ : Leaf).accepts v = true ↔
      c.Holds p v ∧ (c.StartsAtZero p → v.precedence .zero ≠ .lt) := by
  by_cases hincluded : v.Included flag
  · rw [Leaf.accepts_of_included hincluded]
    exact contains_extent_iff_of_included hs hv hincluded
  · have hnames := h.resolve_left hincluded
    obtain rfl := Version.flag_eq_false_of_not_included hincluded
    rw [Leaf.accepts, refusesTriple_of_names hnames, Bool.not_false, Bool.true_and]
    exact contains_extent_iff_of_names hs hv hnames

/-! ## The comparison and its outline -/

theorem Comparator.operators_symbol (k : Comparator) : Operators k.symbol :=
  operators_iff_all.1 (by cases k <;> rfl)

/-- The comparison that the symbol of a comparator and a partial version write. -/
def Comparison.ofComparator (k : Comparator) (p : Partial) : Comparison :=
  ⟨some (String.ofList k.symbol), p⟩

theorem Comparison.comparator?_ofComparator (k : Comparator) (p : Partial) :
    (ofComparator k p).comparator? = some k := by
  rw [comparator?, ofComparator]
  simp only [String.toList_ofList, Comparator.ofSymbol?_symbol]

theorem Condition.spells_ofComparator (k : Comparator) {cs : List Char} {p : Partial}
    (h : p.Spells cs) : Spells (k.symbol ++ cs) (.comparison (.ofComparator k p)) := by
  have hne : k.symbol ≠ [] := by cases k <;> simp [Comparator.symbol]
  exact .operator k.operators_symbol hne gap_nil h

/-- A segment of one comparison admits what its leaf accepts, if that is included or named. -/
theorem Segment.admits_singleton_iff {c : Comparison} {k : Comparator} {flag : Bool}
    (hs : c.version.Shape) (hk : c.comparator? = some k) {v : Version} :
    (⟨[c], []⟩ : Segment).Admits flag v ↔
      (⟨k.extent c.version flag, some k, flag⟩ : Leaf).accepts v = true ∧
        (v.Included flag ∨ c.version.Names v.toTriple) := by
  have hleaf : ∀ l, (⟨[c], []⟩ : Segment).HasLeaf flag l ↔
      l = ⟨k.extent c.version flag, some k, flag⟩ := by
    intro l
    constructor
    · intro hl
      cases hl with
      | comparison hc hk' =>
        obtain rfl := List.mem_singleton.1 hc
        obtain rfl := Option.some.inj (hk.symm.trans hk')
        rfl
      | hyphenRange hr => exact absurd hr List.not_mem_nil
    · rintro rfl
      exact .comparison (List.mem_singleton_self c) hk
  simp only [Admits, hleaf, forall_eq, exists_eq_left]
  refine and_congr_right fun _ => ?_
  by_cases hincluded : v.Included flag
  · simp [hincluded]
  · obtain rfl := Version.flag_eq_false_of_not_included hincluded
    rw [Comparator.anchors_extent_iff hs]

/-- The outline of one comparison. -/
def Outline.ofComparator (k : Comparator) (text : String) (p : Partial) : Outline :=
  ⟨String.ofList k.symbol ++ text, [⟨[Comparison.ofComparator k p], []⟩]⟩

section

variable {text : String} {p : Partial}

theorem layout_comparison (hp : Partial.read? text.toList = some p) (k : Comparator) :
    Layout Condition.Spells (String.ofList k.symbol ++ text).toList
      [.comparison (Comparison.ofComparator k p)] := by
  have hspells := Condition.spells_ofComparator k (Partial.read?_eq_some_iff.1 hp)
  have hlayout := Layout.cons gap_nil hspells (startsBlank_of_gap gap_nil) (.blank gap_nil)
  simpa using hlayout

theorem Outline.parse_comparison (hp : Partial.read? text.toList = some p) (k : Comparator) :
    parse (String.ofList k.symbol ++ text) = .ok (ofComparator k text p) :=
  parse_of_layout (layout_comparison hp k)

theorem Comparison.faults_ofComparator (k : Comparator) (p : Partial) :
    (ofComparator k p).faults = p.faults := by
  rw [faults, comparator?_ofComparator, if_neg (by simp), List.nil_append]
  rfl

theorem Outline.faults_ofComparator (k : Comparator) (text : String) (p : Partial) :
    (ofComparator k text p).faults = p.faults := by
  simp [ofComparator, faults, Segment.faults, Comparison.faults_ofComparator]

namespace Requirement

/-- One comparison can be built if nothing is wrong with its partial version. -/
theorem exists_build_symbol_iff (hp : Partial.read? text.toList = some p) (k : Comparator)
    (flag : Bool) : (∃ r, build (String.ofList k.symbol ++ text) flag = .ok r) ↔ p.faults = [] := by
  rw [exists_build_iff_faults (Outline.parse_comparison hp k), Outline.faults_ofComparator]

/-- What one comparison accepts: of the versions that are included, or of which it names the triple,
those of which its comparator holds. -/
theorem accepts_comparison_iff (hp : Partial.read? text.toList = some p) {k : Comparator}
    {flag : Bool} {r : Requirement} (h : build (String.ofList k.symbol ++ text) flag = .ok r)
    {v : Version} (hv : v.IsNatural) : r.accepts v = true ↔
      (k.Holds p v ∧ (k.StartsAtZero p → v.Ordinary true)) ∧
        (v.Included flag ∨ p.Names v.toTriple) := by
  obtain ⟨o, ho, hsound, haccepts⟩ := exists_outline_of_build h
  obtain rfl := Except.ok.inj (ho.symm.trans (Outline.parse_comparison hp k))
  have hshape : p.Shape := ((hsound _ List.mem_cons_self).comparison _ List.mem_cons_self).1
  have hk := Comparison.comparator?_ofComparator k p
  rw [haccepts, ← Version.precedence_zero_ne_lt_iff hv]
  simp only [Outline.ofComparator, List.mem_singleton, exists_eq_left]
  rw [Segment.admits_singleton_iff hshape hk]
  refine and_congr_left fun hadmitted => ?_
  exact Comparator.accepts_extent_iff hshape hv hadmitted

/-- With pre-releases included it accepts the versions of which its comparator holds. -/
theorem accepts_symbol_iff (hp : Partial.read? text.toList = some p) {k : Comparator}
    {r : Requirement} (h : build (String.ofList k.symbol ++ text) true = .ok r) {v : Version}
    (hv : v.IsNatural) : r.accepts v = true ↔
      k.Holds p v ∧ (k.StartsAtZero p → v.Ordinary true) := by
  rw [accepts_comparison_iff hp h hv]
  exact and_iff_left (.inl v.included_true)

end Requirement

end

end SemverRange
