import SemverRange.Proofs.Requirement.Build
import SemverRange.Proofs.Requirement.Layout

/-!
# Composing requirements

Two texts that are requirements are joined to one, by `||` or by a blank.

**Union.** A text that is read holds no bar, so the bars between the two end the last alternative
of the first (`Outline.parse_union`), and the union has the segments of both.

**Intersection.** The words of the two are the words of the one and then those of the other. No
phrase reaches over the seam, since both sides fall into phrases by themselves: what is read is
the segment with the conditions of both (`Segment.read?_append_blank`). Its leaves are those of
both in another order, and an anchor on either side serves for both, so it may admit pre-releases
that one of the two refuses.

Main result: `Requirement.accepts_composed`.
-/

namespace SemverRange

open Text

/-! ## Intersection of segments -/

theorem Sentence.append {R : List (List Char) → Condition → Prop} {ws ws' : List (List Char)}
    {cs cs' : List Condition} (h : Sentence R ws cs) (h' : Sentence R ws' cs') :
    Sentence R (ws ++ ws') (cs ++ cs') := by
  induction h with
  | nil => exact h'
  | cons hphrase _ ih =>
    rw [List.append_assoc]
    exact .cons hphrase ih

namespace Segment

/-- The segment with the conditions of both. -/
instance : Append Segment where
  append s t := ⟨s.comparisons ++ t.comparisons, s.hyphenRanges ++ t.hyphenRanges⟩

variable {s t : Segment} {flag : Bool} {v : Version}

@[simp] theorem comparisons_append (s t : Segment) :
    (s ++ t).comparisons = s.comparisons ++ t.comparisons := rfl

@[simp] theorem hyphenRanges_append (s t : Segment) :
    (s ++ t).hyphenRanges = s.hyphenRanges ++ t.hyphenRanges := rfl

theorem ofConditions_append (cs ds : List Condition) :
    ofConditions (cs ++ ds) = ofConditions cs ++ ofConditions ds := by
  rw [ofConditions, List.filterMap_append, List.filterMap_append]
  rfl

/-- A blank joins two segments. -/
theorem read?_append_blank {as bs : List Char} (hs : read? as = some s) (ht : read? bs = some t)
    {b : Char} (hb : isBlank b = true) : read? (as ++ b :: bs) = some (s ++ t) := by
  obtain ⟨cs, hcs, rfl⟩ := read?_eq_some_iff.1 hs
  obtain ⟨ds, hds, rfl⟩ := read?_eq_some_iff.1 ht
  refine read?_eq_some_iff.2 ⟨cs ++ ds, ?_, (ofConditions_append cs ds).symm⟩
  rw [words_append_cons as bs hb]
  exact hcs.append hds

theorem exists_clause_append {c d : Clause} (hs : s.clause flag = .ok c)
    (ht : t.clause flag = .ok d) : ∃ e, (s ++ t).clause flag = .ok e := by
  obtain ⟨ls, ls', hls, hls', -⟩ := clause_eq_ok_iff.1 hs
  obtain ⟨ms, ms', hms, hms', -⟩ := clause_eq_ok_iff.1 ht
  refine ⟨_, clause_eq_ok_iff.2 ⟨ls ++ ms, ls' ++ ms', ?_, ?_, rfl⟩⟩
  · rw [comparisons_append, List.map_append, List.map_append, hls, hms]
  · rw [hyphenRanges_append, List.map_append, List.map_append, hls', hms']

theorem hasLeaf_append_iff {l : Leaf} :
    (s ++ t).HasLeaf flag l ↔ s.HasLeaf flag l ∨ t.HasLeaf flag l := by
  constructor
  · intro h
    cases h with
    | comparison hc hk =>
      rcases List.mem_append.1 hc with hc | hc
      · exact .inl (.comparison hc hk)
      · exact .inr (.comparison hc hk)
    | hyphenRange hr =>
      rcases List.mem_append.1 hr with hr | hr
      · exact .inl (.hyphenRange hr)
      · exact .inr (.hyphenRange hr)
  · intro h
    rcases h with h | h
    · cases h with
      | comparison hc hk => exact .comparison (List.mem_append_left _ hc) hk
      | hyphenRange hr => exact .hyphenRange (List.mem_append_left _ hr)
    · cases h with
      | comparison hc hk => exact .comparison (List.mem_append_right _ hc) hk
      | hyphenRange hr => exact .hyphenRange (List.mem_append_right _ hr)

theorem admits_append_comm : (s ++ t).Admits flag v ↔ (t ++ s).Admits flag v := by
  simp only [Admits, hasLeaf_append_iff, or_comm]

theorem Admits.append (hs : s.Admits flag v) (ht : t.Admits flag v) :
    (s ++ t).Admits flag v := by
  constructor
  · intro l hl
    rcases hasLeaf_append_iff.1 hl with hl | hl
    · exact hs.1 l hl
    · exact ht.1 l hl
  · rcases hs.2 with hv | ⟨l, hl, hanchors⟩
    · exact .inl hv
    · exact .inr ⟨l, hasLeaf_append_iff.2 (.inl hl), hanchors⟩

/-- An included version is admitted by both if the joined segment admits it. -/
theorem admits_append_iff (hv : v.Included flag) :
    (s ++ t).Admits flag v ↔ s.Admits flag v ∧ t.Admits flag v := by
  constructor
  · intro h
    constructor
    · exact ⟨fun l hl => h.1 l (hasLeaf_append_iff.2 (.inl hl)), .inl hv⟩
    · exact ⟨fun l hl => h.1 l (hasLeaf_append_iff.2 (.inr hl)), .inl hv⟩
  · intro h
    exact h.1.append h.2

end Segment

/-! ## Union of outlines -/

/-- Bars join two outlines. -/
theorem Outline.parse_union {a b : String} {o p : Outline} (ha : parse a = .ok o)
    (hb : parse b = .ok p) :
    parse (a ++ "||" ++ b) = .ok ⟨a ++ "||" ++ b, o.segments ++ p.segments⟩ := by
  obtain ⟨-, hsegments⟩ := parse_eq_ok_iff.1 ha
  obtain ⟨-, hsegments'⟩ := parse_eq_ok_iff.1 hb
  have hbars : ∀ cs ∈ alternatives a.toList, '|' ∉ cs := by
    intro cs hcs
    obtain ⟨s, -, hread⟩ := exists_mem_of_map_eq_map hsegments hcs
    exact Segment.not_mem_bar_of_read? hread.symm
  have halternatives : alternatives (a ++ "||" ++ b).toList =
      alternatives a.toList ++ alternatives b.toList := by
    rw [← alternatives_intercalate_append (alternatives_ne_nil _) hbars,
      intercalate_alternatives, String.toList_append, String.toList_append, List.append_assoc]
    rfl
  refine parse_eq_ok_iff.2 ⟨rfl, ?_⟩
  rw [halternatives, List.map_append, List.map_append, hsegments, hsegments']

namespace Requirement

variable {a b : String} {flag : Bool} {ra rb : Requirement}

/-- **A union accepts what one of the two accepts.** -/
theorem exists_build_union (ha : build a flag = .ok ra) (hb : build b flag = .ok rb) :
    ∃ r, build (a ++ "||" ++ b) flag = .ok r ∧
      ∀ v, r.accepts v = (ra.accepts v || rb.accepts v) := by
  obtain ⟨o, c, ho, hc, rfl⟩ := build_eq_ok_iff.1 ha
  obtain ⟨p, d, hp, hd, rfl⟩ := build_eq_ok_iff.1 hb
  obtain ⟨cs, hcs, rfl⟩ := Outline.clause_eq_ok_iff.1 hc
  obtain ⟨ds, hds, rfl⟩ := Outline.clause_eq_ok_iff.1 hd
  refine ⟨_, build_eq_ok_iff.2 ⟨_, .either (cs ++ ds), Outline.parse_union ho hp, ?_, rfl⟩, ?_⟩
  · refine Outline.clause_eq_ok_iff.2 ⟨cs ++ ds, ?_, rfl⟩
    rw [List.map_append, List.map_append, hcs, hds]
  · intro v
    simp only [accepts, Clause.accepts_either, List.any_append]

/-! ## Requirements of one segment -/

theorem accepts_singleton_iff {s : Segment} (hs : s.Spelled) {c : Clause}
    (hc : s.clause flag = .ok c) (v : Version) :
    (⟨a, flag, .either [c]⟩ : Requirement).accepts v = true ↔ s.Admits flag v := by
  obtain ⟨ls, rfl, hls⟩ := Segment.clause_eq_ok hs hc
  rw [accepts, Clause.accepts_either, List.any_cons, List.any_nil, Bool.or_false,
    Segment.accepts_clause_iff hls]

theorem exists_segment_of_build {r : Requirement} (h : build a flag = .ok r)
    (hbars : ¬ ['|', '|'] <:+: a.toList) : ∃ s c, Segment.read? a.toList = some s ∧
      s.clause flag = .ok c ∧ ∀ v, r.accepts v = true ↔ s.Admits flag v := by
  have halone := Outline.alternatives_of_not_infix hbars
  obtain ⟨s, c, hread, hc, rfl⟩ := (build_eq_ok_iff_of_alone halone).1 h
  exact ⟨s, c, hread, hc, accepts_singleton_iff (Segment.spelled_of_read? hread) hc⟩

/-- **An intersection accepts what the joined segment admits.** -/
theorem exists_build_intersection {s t : Segment} {c d : Clause}
    (hs : Segment.read? a.toList = some s) (hc : s.clause flag = .ok c)
    (ht : Segment.read? b.toList = some t) (hd : t.clause flag = .ok d) :
    ∃ r, build (a ++ " " ++ b) flag = .ok r ∧
      ∀ v, r.accepts v = true ↔ (s ++ t).Admits flag v := by
  have htext : (a ++ " " ++ b).toList = a.toList ++ ' ' :: b.toList := by
    rw [String.toList_append, String.toList_append, List.append_assoc]
    rfl
  have hread : Segment.read? (a ++ " " ++ b).toList = some (s ++ t) := by
    rw [htext]
    exact Segment.read?_append_blank hs ht (by decide)
  have halone := Outline.alternatives_of_not_mem (Segment.not_mem_bar_of_read? hread)
  obtain ⟨e, he⟩ := Segment.exists_clause_append hc hd
  refine ⟨_, (build_eq_ok_iff_of_alone halone).2 ⟨s ++ t, e, hread, he, rfl⟩, ?_⟩
  exact accepts_singleton_iff (Segment.spelled_of_read? hread) he

/-! ## Both compositions -/

/-- **Requirements compose.** Both compositions of two requirements can be built. The union
accepts a version if one of the two does. Without bars in the two, the intersection accepts an
included version if both do, and any version that both accept. The order of the two does not
matter. -/
theorem accepts_composed (ha : build a flag = .ok ra) (hb : build b flag = .ok rb) :
    (∃ r r', build (a ++ "||" ++ b) flag = .ok r ∧ build (b ++ "||" ++ a) flag = .ok r' ∧
      ∀ v, r.accepts v = (ra.accepts v || rb.accepts v) ∧ r'.accepts v = r.accepts v) ∧
    (¬ ['|', '|'] <:+: a.toList → ¬ ['|', '|'] <:+: b.toList →
      ∃ r r', build (a ++ " " ++ b) flag = .ok r ∧ build (b ++ " " ++ a) flag = .ok r' ∧
        ∀ v, (v.Included flag → r.accepts v = (ra.accepts v && rb.accepts v)) ∧
          (ra.accepts v = true → rb.accepts v = true → r.accepts v = true) ∧
          r'.accepts v = r.accepts v) := by
  constructor
  · obtain ⟨r, hr, haccepts⟩ := exists_build_union ha hb
    obtain ⟨r', hr', haccepts'⟩ := exists_build_union hb ha
    refine ⟨r, r', hr, hr', fun v => ⟨haccepts v, ?_⟩⟩
    rw [haccepts', haccepts, Bool.or_comm]
  · intro hbars hbars'
    obtain ⟨s, c, hs, hc, hra⟩ := exists_segment_of_build ha hbars
    obtain ⟨t, d, ht, hd, hrb⟩ := exists_segment_of_build hb hbars'
    obtain ⟨r, hr, haccepts⟩ := exists_build_intersection hs hc ht hd
    obtain ⟨r', hr', haccepts'⟩ := exists_build_intersection ht hd hs hc
    refine ⟨r, r', hr, hr', fun v => ⟨fun hv => ?_, fun hav hbv => ?_, ?_⟩⟩
    · rw [Bool.eq_iff_iff, Bool.and_eq_true, haccepts, hra, hrb]
      exact Segment.admits_append_iff hv
    · exact (haccepts v).2 (((hra v).1 hav).append ((hrb v).1 hbv))
    · rw [Bool.eq_iff_iff, haccepts, haccepts']
      exact Segment.admits_append_comm

theorem accepts_composed_prerelease : ∃ ra rb r, build ">=1.2.3-a" false = .ok ra ∧
    build "1.x <1.2.3-c" false = .ok rb ∧
    build (">=1.2.3-a" ++ " " ++ "1.x <1.2.3-c") false = .ok r ∧
    ra.accepts ⟨⟨1, 2, 3⟩, ["b"], []⟩ = true ∧ rb.accepts ⟨⟨1, 2, 3⟩, ["b"], []⟩ = true ∧
    r.accepts ⟨⟨1, 2, 3⟩, ["b"], []⟩ = true := by
  obtain ⟨ra, ha, hav⟩ : ∃ r, build ">=1.2.3-a" false = .ok r ∧
      r.accepts ⟨⟨1, 2, 3⟩, ["b"], []⟩ = true := exists_build_of_accepts (by decide +kernel)
  obtain ⟨rb, hb, hbv⟩ : ∃ r, build "1.x <1.2.3-c" false = .ok r ∧
      r.accepts ⟨⟨1, 2, 3⟩, ["b"], []⟩ = true := exists_build_of_accepts (by decide +kernel)
  have hbars : '|' ∉ ">=1.2.3-a".toList ∧ '|' ∉ "1.x <1.2.3-c".toList := by decide
  obtain ⟨-, hintersection⟩ := accepts_composed ha hb
  obtain ⟨r, r', hr, -, haccepts⟩ := hintersection
    (fun h => hbars.1 (h.subset List.mem_cons_self))
    (fun h => hbars.2 (h.subset List.mem_cons_self))
  exact ⟨ra, rb, r, ha, hb, hr, hav, hbv, (haccepts _).2.1 hav hbv⟩

end Requirement

end SemverRange
