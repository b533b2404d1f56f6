import SemverRange.Proofs.Band.Reading
import SemverRange.Proofs.Requirement.Phrases
import SemverRange.Requirement.Basic

/-!
# What a requirement is built from

A requirement that can be built has an outline in which every partial version stands for a band
and every symbol is that of a comparator (`Segment.Sound`). Its clause has one leaf for each
condition of a segment, and no others (`Segment.HasLeaf`).

**Succeeding.** Each step of building succeeds if the steps for its parts do: for an outline, for
a segment, and for the conditions of a segment, of which each then has the leaf of its extent
(`Segment.Built`).

**Accepting.** A segment admits a version if all its leaves accept it and, unless the version is
included anyway, one of them anchors it (`Segment.Admits`); this is what its clause accepts
(`Segment.Accepts`).

Main results: `Requirement.build_eq_ok_iff` and `Requirement.exists_outline_of_build`.
-/

namespace SemverRange

/-! ## Steps over a list -/

theorem mapM_eq_ok_iff {ε α β : Type} {f : α → Except ε β} {xs : List α} {ys : List β} :
    xs.mapM f = .ok ys ↔ xs.map f = ys.map .ok := by
  induction xs generalizing ys with
  | nil =>
    constructor
    · intro h
      obtain rfl : [] = ys := Except.ok.inj h
      rfl
    · intro h
      obtain rfl : ys = [] := List.map_eq_nil_iff.1 h.symm
      rfl
  | cons x xs ih =>
    rw [List.mapM_cons]
    constructor
    · intro h
      obtain ⟨y, hy, h⟩ := exists_ok_of_bind h
      obtain ⟨zs, hzs, h⟩ := exists_ok_of_bind h
      obtain rfl : y :: zs = ys := Except.ok.inj h
      rw [List.map_cons, List.map_cons, hy, ih.1 hzs]
    · intro h
      cases ys with
      | nil => exact absurd h (by simp)
      | cons y ys =>
        obtain ⟨hy, hys⟩ := List.cons.inj h
        rw [hy, ih.2 hys]
        rfl

theorem mem_iff_of_map_eq_ok {ε α β : Type} {f : α → Except ε β} {xs : List α} {ys : List β}
    (h : xs.map f = ys.map .ok) {y : β} : y ∈ ys ↔ ∃ x ∈ xs, f x = .ok y := by
  constructor
  · intro hy
    exact exists_mem_of_map_eq_map h.symm hy
  · rintro ⟨x, hx, hy⟩
    obtain ⟨z, hz, hzx⟩ := exists_mem_of_map_eq_map h hx
    rwa [← Except.ok.inj (hzx.trans hy)]

/-! ## Leaves -/

namespace Segment

/-- The partial versions stand for bands, and the symbols are those of comparators. -/
structure Sound (s : Segment) : Prop where
  comparison : ∀ c ∈ s.comparisons, c.version.Shape ∧ ∃ k, c.comparator? = some k
  hyphenRange : ∀ r ∈ s.hyphenRanges, r.low.Shape ∧ r.high.Shape

/-- The leaves of the conditions of a segment. -/
inductive HasLeaf (s : Segment) (includePrerelease : Bool) : Leaf → Prop
  | comparison {c : Comparison} {k : Comparator} : c ∈ s.comparisons → c.comparator? = some k →
      HasLeaf s includePrerelease
        ⟨k.extent c.version includePrerelease, some k, includePrerelease⟩
  | hyphenRange {r : HyphenRange} : r ∈ s.hyphenRanges →
      HasLeaf s includePrerelease
        ⟨Interval.span r.low r.high includePrerelease, none, includePrerelease⟩

/-- The clause of the segment accepts the version. -/
def Accepts (s : Segment) (includePrerelease : Bool) (v : Version) : Prop :=
  ∃ c, s.clause includePrerelease = .ok c ∧ c.accepts v = true

/-- All leaves accept the version, and one anchors it unless it is included anyway. -/
def Admits (s : Segment) (includePrerelease : Bool) (v : Version) : Prop :=
  (∀ l, s.HasLeaf includePrerelease l → l.accepts v = true) ∧
    (v.Included includePrerelease ∨ ∃ l, s.HasLeaf includePrerelease l ∧ l.anchors v = true)

end Segment

theorem Comparator.read_of_operators {d : Char} {ds : List Char} (hops : Operators (d :: ds)) :
    Comparator.read (symbol? (d :: ds)) =
      match Comparator.ofSymbol? (d :: ds) with
      | some k => .ok (some k)
      | none => .error (.malformed (String.ofList (d :: ds))) := by
  have htrim : Text.trim (d :: ds) = d :: ds :=
    Text.stripBy_eq_self fun e he => isBlank_of_isOperatorChar (hops e he)
  cases hsymbol : Comparator.ofSymbol? (d :: ds) with
  | none => simp [symbol?, Comparator.read, htrim, hsymbol]
  | some k => simp [symbol?, Comparator.read, htrim, hsymbol]

theorem Comparison.comparator?_of_read {c : Comparison} {ops : List Char} (hops : Operators ops)
    (hsymbol : c.symbol = symbol? ops) {k : Option Comparator}
    (h : Comparator.read c.symbol = .ok k) : c.comparator? = some (k.getD .eq) := by
  rw [hsymbol] at h
  rw [comparator?, hsymbol]
  cases ops with
  | nil =>
    obtain rfl : none = k := Except.ok.inj h
    rfl
  | cons d ds =>
    rw [Comparator.read_of_operators hops] at h
    simp only [symbol?, List.isEmpty_cons, Bool.false_eq_true, if_false, String.toList_ofList]
    cases hread : Comparator.ofSymbol? (d :: ds) with
    | none => simp [hread] at h
    | some e =>
      simp only [hread, Except.ok.injEq] at h
      rw [← h, Option.getD_some]

/-- The leaf of a comparison has the extent of its comparator. -/
theorem Comparison.leaf_eq_ok {c : Comparison} {ops : List Char} (hops : Operators ops)
    (hsymbol : c.symbol = symbol? ops) (hp : c.version.Spellable) {flag : Bool} {l : Leaf}
    (h : c.leaf flag = .ok l) :
    ∃ k, c.comparator? = some k ∧ c.version.Shape ∧
      l = ⟨k.extent c.version flag, some k, flag⟩ := by
  obtain ⟨k, hk, h⟩ := exists_ok_of_bind h
  obtain ⟨i, hi, h⟩ := exists_ok_of_bind h
  obtain ⟨hs, rfl⟩ := Comparator.interval_eq_ok hp hi
  exact ⟨_, comparator?_of_read hops hsymbol hk, hs, (Except.ok.inj h).symm⟩

/-- The leaf of a hyphen range has its span. -/
theorem HyphenRange.leaf_eq_ok {r : HyphenRange} (hlow : r.low.Spellable)
    (hhigh : r.high.Spellable) {flag : Bool} {l : Leaf} (h : r.leaf flag = .ok l) :
    r.low.Shape ∧ r.high.Shape ∧ l = ⟨Interval.span r.low r.high flag, none, flag⟩ := by
  obtain ⟨i, hi, h⟩ := exists_ok_of_bind h
  obtain ⟨hl, hh, rfl⟩ := Interval.between_eq_ok hlow hhigh hi
  exact ⟨hl, hh, (Except.ok.inj h).symm⟩

/-! ## Segments -/

namespace Segment

/-- The partial versions are spelled, and the symbols are made of operator characters. -/
structure Spelled (s : Segment) : Prop where
  comparison : ∀ c ∈ s.comparisons,
    c.version.Spellable ∧ ∃ ops, Operators ops ∧ c.symbol = symbol? ops
  hyphenRange : ∀ r ∈ s.hyphenRanges, r.low.Spellable ∧ r.high.Spellable

theorem Spelled.consComparison {s : Segment} (hs : s.Spelled) {ops : List Char} {p : Partial}
    (hops : Operators ops) (hp : p.Spellable) :
    (Segment.consComparison ⟨symbol? ops, p⟩ s).Spelled where
  comparison := by
    intro c hc
    rcases List.mem_cons.1 hc with rfl | hc
    · exact ⟨hp, ops, hops, rfl⟩
    · exact hs.comparison c hc
  hyphenRange := hs.hyphenRange

theorem Spelled.consHyphenRange {s : Segment} (hs : s.Spelled) {low high : Partial}
    (hlow : low.Spellable) (hhigh : high.Spellable) :
    (Segment.consHyphenRange ⟨low, high⟩ s).Spelled where
  comparison := hs.comparison
  hyphenRange := by
    intro r hr
    rcases List.mem_cons.1 hr with rfl | hr
    · exact ⟨hlow, hhigh⟩
    · exact hs.hyphenRange r hr

theorem spelled_of_sentence {ws : List (List Char)} {cs : List Condition}
    (h : Sentence ReadPhrase ws cs) : (ofConditions cs).Spelled := by
  induction h with
  | nil => exact ⟨fun c hc => absurd hc List.not_mem_nil, fun r hr => absurd hr List.not_mem_nil⟩
  | cons hphrase _ ih =>
    rcases hphrase with hphrase | hphrase
    · cases hphrase with
      | word hops hspells => exact ih.consComparison hops hspells.1
      | detached hops _ hspells => exact ih.consComparison hops hspells.1
      | hyphenRange hlow hhigh => exact ih.consHyphenRange hlow.1 hhigh.1
    · cases hphrase with
      | split hfront _ hback _ hspells => exact ih.consComparison (hfront.append hback) hspells.1

theorem spelled_of_read? {cs : List Char} {s : Segment} (h : read? cs = some s) : s.Spelled := by
  obtain ⟨conditions, hsentence, rfl⟩ := read?_eq_some_iff.1 h
  exact spelled_of_sentence hsentence

theorem Spelled.leaf_of_comparison {s : Segment} (hs : s.Spelled) {c : Comparison}
    (hc : c ∈ s.comparisons) {flag : Bool} {l : Leaf} (h : c.leaf flag = .ok l) :
    ∃ k, c.comparator? = some k ∧ c.version.Shape ∧
      l = ⟨k.extent c.version flag, some k, flag⟩ := by
  obtain ⟨hp, ops, hops, hsymbol⟩ := hs.comparison c hc
  exact Comparison.leaf_eq_ok hops hsymbol hp h

theorem Spelled.leaf_of_hyphenRange {s : Segment} (hs : s.Spelled) {r : HyphenRange}
    (hr : r ∈ s.hyphenRanges) {flag : Bool} {l : Leaf} (h : r.leaf flag = .ok l) :
    r.low.Shape ∧ r.high.Shape ∧ l = ⟨Interval.span r.low r.high flag, none, flag⟩ := by
  obtain ⟨hlow, hhigh⟩ := hs.hyphenRange r hr
  exact HyphenRange.leaf_eq_ok hlow hhigh h

theorem clause_eq_ok_iff {s : Segment} {flag : Bool} {c : Clause} : s.clause flag = .ok c ↔
    ∃ ls ls' : List Leaf, s.comparisons.map (·.leaf flag) = ls.map .ok ∧
      s.hyphenRanges.map (·.leaf flag) = ls'.map .ok ∧
      c = .every ((ls ++ ls').map .leaf) flag := by
  constructor
  · intro h
    obtain ⟨ls, hls, h⟩ := exists_ok_of_bind h
    obtain ⟨ls', hls', h⟩ := exists_ok_of_bind h
    exact ⟨ls, ls', mapM_eq_ok_iff.1 hls, mapM_eq_ok_iff.1 hls', (Except.ok.inj h).symm⟩
  · rintro ⟨ls, ls', hls, hls', rfl⟩
    rw [clause, mapM_eq_ok_iff.2 hls, mapM_eq_ok_iff.2 hls']
    rfl

/-- Every condition has a leaf, the one of its extent or span. -/
structure Built (s : Segment) (includePrerelease : Bool) : Prop where
  comparison : ∀ c ∈ s.comparisons, c.version.Shape ∧ ∃ k, c.comparator? = some k ∧
    c.leaf includePrerelease =
      .ok ⟨k.extent c.version includePrerelease, some k, includePrerelease⟩
  hyphenRange : ∀ r ∈ s.hyphenRanges, r.low.Shape ∧ r.high.Shape ∧
    r.leaf includePrerelease =
      .ok ⟨Interval.span r.low r.high includePrerelease, none, includePrerelease⟩

theorem Built.sound {s : Segment} {flag : Bool} (hs : s.Built flag) : s.Sound where
  comparison := by
    intro c hc
    obtain ⟨hshape, k, hk, -⟩ := hs.comparison c hc
    exact ⟨hshape, k, hk⟩
  hyphenRange := by
    intro r hr
    obtain ⟨hlow, hhigh, -⟩ := hs.hyphenRange r hr
    exact ⟨hlow, hhigh⟩

theorem built_of_clause {s : Segment} (hs : s.Spelled) {flag : Bool} {c : Clause}
    (h : s.clause flag = .ok c) : s.Built flag := by
  obtain ⟨ls, ls', hcomparisons, hranges, -⟩ := clause_eq_ok_iff.1 h
  constructor
  · intro c hc
    obtain ⟨l, -, hl⟩ := exists_mem_of_map_eq_map hcomparisons hc
    obtain ⟨k, hk, hshape, rfl⟩ := hs.leaf_of_comparison hc hl.symm
    exact ⟨hshape, k, hk, hl.symm⟩
  · intro r hr
    obtain ⟨l, -, hl⟩ := exists_mem_of_map_eq_map hranges hr
    obtain ⟨hlow, hhigh, rfl⟩ := hs.leaf_of_hyphenRange hr hl.symm
    exact ⟨hlow, hhigh, hl.symm⟩

/-- The leaves of a segment are those that its conditions are built to. -/
theorem Built.hasLeaf_iff {s : Segment} {flag : Bool} (hs : s.Built flag) {l : Leaf} :
    s.HasLeaf flag l ↔ (∃ c ∈ s.comparisons, c.leaf flag = .ok l) ∨
      ∃ r ∈ s.hyphenRanges, r.leaf flag = .ok l := by
  constructor
  · intro h
    cases h with
    | @comparison c k hc hk =>
      obtain ⟨-, k', hk', hleaf⟩ := hs.comparison c hc
      obtain rfl : k = k' := Option.some.inj (hk.symm.trans hk')
      exact .inl ⟨c, hc, hleaf⟩
    | @hyphenRange r hr =>
      obtain ⟨-, -, hleaf⟩ := hs.hyphenRange r hr
      exact .inr ⟨r, hr, hleaf⟩
  · intro h
    rcases h with ⟨c, hc, hl⟩ | ⟨r, hr, hl⟩
    · obtain ⟨-, k, hk, hleaf⟩ := hs.comparison c hc
      obtain rfl := Except.ok.inj (hl.symm.trans hleaf)
      exact .comparison hc hk
    · obtain ⟨-, -, hleaf⟩ := hs.hyphenRange r hr
      obtain rfl := Except.ok.inj (hl.symm.trans hleaf)
      exact .hyphenRange hr

/-- The leaves that a segment is built from are those of its conditions. -/
theorem clause_eq_ok {s : Segment} (hs : s.Spelled) {flag : Bool} {c : Clause}
    (h : s.clause flag = .ok c) : ∃ ls : List Leaf, c = .every (ls.map .leaf) flag ∧
      ∀ l, l ∈ ls ↔ s.HasLeaf flag l := by
  have hbuilt := built_of_clause hs h
  obtain ⟨ls, ls', hcomparisons, hranges, rfl⟩ := clause_eq_ok_iff.1 h
  refine ⟨ls ++ ls', rfl, fun l => ?_⟩
  rw [hbuilt.hasLeaf_iff, List.mem_append, mem_iff_of_map_eq_ok hcomparisons,
    mem_iff_of_map_eq_ok hranges]

theorem accepts_clause_iff {s : Segment} {flag : Bool} {ls : List Leaf}
    (hls : ∀ l, l ∈ ls ↔ s.HasLeaf flag l) (v : Version) :
    (Clause.every (ls.map .leaf) flag).accepts v = true ↔ s.Admits flag v := by
  rw [Clause.accepts_every, Bool.and_eq_true]
  refine and_congr ?_ ?_
  · simp [Clause.accepts, hls]
  · simp [Clause.anchors, hls, Version.Included]

theorem accepts_iff_admits {s : Segment} (hs : s.Spelled) {flag : Bool} {c : Clause}
    (h : s.clause flag = .ok c) (v : Version) : s.Accepts flag v ↔ s.Admits flag v := by
  obtain ⟨ls, rfl, hls⟩ := clause_eq_ok hs h
  rw [← accepts_clause_iff hls]
  constructor
  · intro haccepts
    obtain ⟨c, hc, haccepts⟩ := haccepts
    obtain rfl := Except.ok.inj (h.symm.trans hc)
    exact haccepts
  · intro haccepts
    exact ⟨_, h, haccepts⟩

end Segment

/-! ## Outlines -/

namespace Outline

theorem clause_eq_ok_iff {o : Outline} {flag : Bool} {c : Clause} : o.clause flag = .ok c ↔
    ∃ cs : List Clause, o.segments.map (·.clause flag) = cs.map .ok ∧ c = .either cs := by
  constructor
  · intro h
    obtain ⟨cs, hcs, h⟩ := exists_ok_of_bind h
    exact ⟨cs, mapM_eq_ok_iff.1 hcs, (Except.ok.inj h).symm⟩
  · rintro ⟨cs, hcs, rfl⟩
    rw [clause, mapM_eq_ok_iff.2 hcs]
    rfl

theorem clause_of_mem {o : Outline} {flag : Bool} {c : Clause} (h : o.clause flag = .ok c)
    {s : Segment} (hs : s ∈ o.segments) : ∃ d, s.clause flag = .ok d := by
  obtain ⟨cs, hcs, -⟩ := clause_eq_ok_iff.1 h
  obtain ⟨d, -, hd⟩ := exists_mem_of_map_eq_map hcs hs
  exact ⟨d, hd.symm⟩

/-- An outline accepts what one of its segments accepts. -/
theorem accepts_clause_iff {o : Outline} {flag : Bool} {c : Clause} (h : o.clause flag = .ok c)
    (v : Version) : c.accepts v = true ↔ ∃ s ∈ o.segments, s.Accepts flag v := by
  obtain ⟨cs, hcs, rfl⟩ := clause_eq_ok_iff.1 h
  rw [Clause.accepts_either, List.any_eq_true]
  constructor
  · intro haccepts
    obtain ⟨d, hmem, hd⟩ := haccepts
    obtain ⟨s, hs, hclause⟩ := exists_mem_of_map_eq_map hcs.symm hmem
    exact ⟨s, hs, d, hclause, hd⟩
  · intro haccepts
    obtain ⟨s, hs, d, hclause, hd⟩ := haccepts
    obtain ⟨d', hmem, hclause'⟩ := exists_mem_of_map_eq_map hcs hs
    obtain rfl := Except.ok.inj (hclause'.trans hclause)
    exact ⟨d', hmem, hd⟩

theorem spelled_of_parse {raw : String} {o : Outline} (h : parse raw = .ok o) :
    ∀ s ∈ o.segments, s.Spelled := by
  intro s hs
  obtain ⟨-, hsegments⟩ := parse_eq_ok_iff.1 h
  obtain ⟨cs, -, hread⟩ := exists_mem_of_map_eq_map hsegments.symm hs
  exact Segment.spelled_of_read? hread

theorem built_of_clause {raw : String} {o : Outline} (ho : parse raw = .ok o) {flag : Bool}
    {c : Clause} (h : o.clause flag = .ok c) : ∀ s ∈ o.segments, s.Built flag := by
  intro s hs
  obtain ⟨d, hd⟩ := clause_of_mem h hs
  exact Segment.built_of_clause (spelled_of_parse ho s hs) hd

end Outline

/-! ## Requirements -/

namespace Requirement

/-- What a computed answer says about a requirement that can be built. -/
theorem exists_build_of_accepts {raw : String} {flag : Bool} {v : Version} {b : Bool}
    (h : (build raw flag).toOption.map (·.accepts v) = some b) :
    ∃ r, build raw flag = .ok r ∧ r.accepts v = b := by
  cases hr : build raw flag with
  | error e =>
    rw [hr] at h
    exact absurd h (by simp [Except.toOption])
  | ok r =>
    rw [hr] at h
    exact ⟨r, rfl, Option.some.inj h⟩

theorem build_eq_ok_iff {raw : String} {flag : Bool} {r : Requirement} :
    build raw flag = .ok r ↔ ∃ o c, Outline.parse raw = .ok o ∧ o.clause flag = .ok c ∧
      r = ⟨raw, flag, c⟩ := by
  constructor
  · intro h
    obtain ⟨o, ho, hr⟩ := exists_ok_of_bind h
    obtain ⟨c, hc, hr⟩ := exists_ok_of_bind hr
    obtain ⟨hraw, -⟩ := Outline.parse_eq_ok_iff.1 ho
    refine ⟨o, c, ho, hc, ?_⟩
    rw [← Except.ok.inj hr, hraw]
  · rintro ⟨o, c, ho, hc, rfl⟩
    obtain ⟨rfl, -⟩ := Outline.parse_eq_ok_iff.1 ho
    show (do ofOutline (← Outline.parse o.raw) flag) = _
    rw [ho]
    show (do return ⟨o.raw, flag, ← o.clause flag⟩ : Except RequirementError Requirement) = _
    rw [hc]
    rfl

theorem build_eq_ok_iff_of_alone {raw : String} {flag : Bool} {r : Requirement}
    (h : Outline.alternatives raw.toList = [raw.toList]) : build raw flag = .ok r ↔
      ∃ s c, Segment.read? raw.toList = some s ∧ s.clause flag = .ok c ∧
        r = ⟨raw, flag, .either [c]⟩ := by
  rw [build_eq_ok_iff]
  constructor
  · rintro ⟨o, c, ho, hc, rfl⟩
    obtain ⟨-, hsegments⟩ := Outline.parse_eq_ok_iff.1 ho
    rw [h, List.map_singleton] at hsegments
    obtain ⟨s, hs, hread⟩ := List.map_eq_singleton_iff.1 hsegments.symm
    obtain ⟨cs, hcs, rfl⟩ := Outline.clause_eq_ok_iff.1 hc
    rw [hs, List.map_singleton] at hcs
    obtain ⟨c, rfl, hclause⟩ := List.map_eq_singleton_iff.1 hcs.symm
    exact ⟨s, c, hread.symm, hclause.symm, rfl⟩
  · rintro ⟨s, c, hread, hclause, rfl⟩
    refine ⟨⟨raw, [s]⟩, .either [c], Outline.parse_eq_ok_iff.2 ⟨rfl, ?_⟩,
      Outline.clause_eq_ok_iff.2 ⟨[c], ?_, rfl⟩, rfl⟩
    · rw [h, List.map_singleton, List.map_singleton, hread]
    · rw [List.map_singleton, List.map_singleton, hclause]

/-- A requirement accepts what one of its segments admits. -/
theorem exists_outline_of_build {raw : String} {flag : Bool} {r : Requirement}
    (h : build raw flag = .ok r) : ∃ o, Outline.parse raw = .ok o ∧ (∀ s ∈ o.segments, s.Sound) ∧
      ∀ v, r.accepts v = true ↔ ∃ s ∈ o.segments, s.Admits flag v := by
  obtain ⟨o, c, ho, hc, rfl⟩ := build_eq_ok_iff.1 h
  have hbuilt := Outline.built_of_clause ho hc
  refine ⟨o, ho, fun s hs => (hbuilt s hs).sound, fun v => ?_⟩
  rw [accepts, Outline.accepts_clause_iff hc]
  refine exists_congr fun s => and_congr_right fun hs => ?_
  obtain ⟨d, hd⟩ := Outline.clause_of_mem hc hs
  exact Segment.accepts_iff_admits (Outline.spelled_of_parse ho s hs) hd v

end Requirement

end SemverRange
