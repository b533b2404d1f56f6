import SemverRange.Proofs.Requirement.Composition
import SemverRange.Proofs.Requirement.SingleComparison

/-!
# A hyphen range is a pair of comparisons

**One leaf and two.** A hyphen range has one leaf, the comparisons `>=` with its low end and `<=`
with its high end have two. The interval of the one is where those of the two meet, except that
`<=` leaves out what is below the lowest release of all; and the one anchors what the two anchor,
the triples that the ends name. So the two may stand for the one among any other conditions of a
segment (`Segment.admits_expanded_iff`).

**Words.** That a hyphen range of a text is read as one does not go without saying, since an
operator reaches for the next word. But a hyphen starts no phrase, and a phrase goes on with a
hyphen only after the low end of its own range. So the three words of a hyphen range are a phrase
wherever they stand, and what precedes and what follows them is read by itself
(`Sentence.exists_hyphenRange`).

Main result: `Requirement.hyphenRange_abbreviates`.
-/

namespace SemverRange

open Text

/-! ## One leaf and two -/

namespace Interval

/-- A hyphen range from a version to itself has the interval of equality. -/
theorem between_self (p : Partial) (flag : Bool) :
    between p p flag = Comparator.eq.interval p flag := by
  unfold between lowEnd Comparator.interval Comparator.band Partial.lower
  by_cases hmajor : Partial.isWildcard p.major = true
  · cases p.check <;> simp [hmajor, bind, Except.bind, pure, Except.pure]
  · by_cases hexact : p.isExact = true
    · cases p.lowest <;> simp [hmajor, hexact, bind, Except.bind, pure, Except.pure]
    · cases p.lowest <;> simp [hmajor, hexact, bind, Except.bind, pure, Except.pure]

end Interval

theorem Comparator.extent_ge (p : Partial) (flag : Bool) :
    ge.extent p flag = .startingAt (p.floorBottom flag) := by
  by_cases hmajor : Partial.isWildcard p.major = true
  · simp [extent, hmajor]
  · simp [extent, hmajor]

/-- The interval of a hyphen range is where those of `>=` and `<=` meet, but that it may start below
the lowest release of all. -/
theorem Interval.contains_span_iff_extents {low high : Partial} {v : Version} {flag : Bool}
    (hhigh : high.Shape) (hv : v.IsNatural) (hzero : v.Ordinary true) :
    (span low high flag).contains v = true ↔
      (Comparator.ge.extent low flag).contains v = true ∧
        (Comparator.le.extent high flag).contains v = true := by
  have hlowest : v.precedence .zero ≠ .lt := (Version.precedence_zero_ne_lt_iff hv).2 hzero
  rw [Comparator.extent_ge, contains_startingAt_iff]
  cases hmajor : Partial.isWildcard high.major with
  | true =>
    have hbottom : v.precedence (high.floorBottom flag) ≠ .lt := by
      rw [hhigh.floorBottom_of_isWildcard hmajor, ne_eq, Version.zero,
        Version.precedence_floor_eq_lt_iff]
      rintro (hlt | ⟨hedge, hnot⟩)
      · exact hlowest (Version.precedence_eq_lt_iff.2 (.inl hlt))
      · exact hnot (.inl (hzero.resolve_right fun h => h.2 hedge))
    simp [span, Comparator.extent, hmajor, contains_startingAt_iff, hbottom]
  | false =>
    cases hexact : high.isExact with
    | true => simp [span, Comparator.extent, hmajor, hexact, contains_closed_iff, hlowest]
    | false => simp [span, Comparator.extent, hmajor, hexact, contains_upTo_iff, hlowest]

/-! ## Segments -/

/-- The two comparisons that say what a hyphen range says. -/
def HyphenRange.comparisons (r : HyphenRange) : List Condition :=
  [.comparison (.ofComparator .ge r.low), .comparison (.ofComparator .le r.high)]

namespace Segment

variable {r : HyphenRange} {flag : Bool} {v : Version} {l : Leaf}

theorem hasLeaf_hyphenRange_iff : (ofConditions [.hyphenRange r]).HasLeaf flag l ↔
    l = ⟨Interval.span r.low r.high flag, none, flag⟩ := by
  refine ⟨fun h => ?_, fun h => ?_⟩
  · cases h with
    | comparison hc => exact absurd hc List.not_mem_nil
    | hyphenRange hr =>
      obtain rfl := List.mem_singleton.1 hr
      rfl
  · rw [h]
    exact .hyphenRange List.mem_cons_self

theorem hasLeaf_comparisons_iff : (ofConditions r.comparisons).HasLeaf flag l ↔
    l = ⟨Comparator.ge.extent r.low flag, some .ge, flag⟩ ∨
      l = ⟨Comparator.le.extent r.high flag, some .le, flag⟩ := by
  have hge := Comparison.comparator?_ofComparator .ge r.low
  have hle := Comparison.comparator?_ofComparator .le r.high
  refine ⟨fun h => ?_, fun h => ?_⟩
  · cases h with
    | comparison hc hk =>
      rcases List.mem_cons.1 hc with rfl | hc
      · obtain rfl := Option.some.inj (hge.symm.trans hk)
        exact .inl rfl
      · obtain rfl := List.mem_singleton.1 hc
        obtain rfl := Option.some.inj (hle.symm.trans hk)
        exact .inr rfl
    | hyphenRange hr => exact absurd hr List.not_mem_nil
  · rcases h with rfl | rfl
    · exact .comparison (c := Comparison.ofComparator .ge r.low) List.mem_cons_self hge
    · exact .comparison (c := Comparison.ofComparator .le r.high)
        (List.mem_cons_of_mem _ List.mem_cons_self) hle

/-- The leaf of a hyphen range accepts what the leaves of the two comparisons accept. -/
theorem forall_accepts_hyphenRange_iff (hhigh : r.high.Shape) (hv : v.IsNatural)
    (hzero : v.Ordinary true) :
    (∀ l, (ofConditions [.hyphenRange r]).HasLeaf flag l → l.accepts v = true) ↔
      ∀ l, (ofConditions r.comparisons).HasLeaf flag l → l.accepts v = true := by
  have haccepts : ∀ (i : Interval) (k : Option Comparator), k ≠ some .caret →
      ((⟨i, k, flag⟩ : Leaf).accepts v = true ↔ i.contains v = true) := fun i k hk => by
    simp [Leaf.accepts, Leaf.refusesTriple, hk]
  simp only [hasLeaf_hyphenRange_iff, hasLeaf_comparisons_iff, forall_eq, forall_eq_or_imp]
  rw [haccepts _ _ (by decide), haccepts _ _ (by decide), haccepts _ _ (by decide)]
  exact Interval.contains_span_iff_extents hhigh hv hzero

theorem exists_anchors_hyphenRange_iff (hlow : r.low.Shape) (hhigh : r.high.Shape) :
    (∃ l, (ofConditions [.hyphenRange r]).HasLeaf false l ∧ l.anchors v = true) ↔
      ∃ l, (ofConditions r.comparisons).HasLeaf false l ∧ l.anchors v = true := by
  simp only [hasLeaf_hyphenRange_iff, hasLeaf_comparisons_iff, exists_eq_left, or_and_right,
    exists_or]
  rw [Interval.anchors_span_iff hlow hhigh, Comparator.anchors_extent_iff hlow,
    Comparator.anchors_extent_iff hhigh]

/-- Two comparisons may stand for a hyphen range among any other conditions. -/
theorem admits_expanded_iff (hlow : r.low.Shape) (hhigh : r.high.Shape) (hv : v.IsNatural)
    (hzero : v.Ordinary true) (s t : Segment) :
    (s ++ (ofConditions [.hyphenRange r] ++ t)).Admits flag v ↔
      (s ++ (ofConditions r.comparisons ++ t)).Admits flag v := by
  simp only [Admits, hasLeaf_append_iff, or_imp, forall_and, or_and_right, exists_or]
  rw [forall_accepts_hyphenRange_iff hhigh hv hzero]
  refine and_congr_right fun _ => ?_
  by_cases hincluded : v.Included flag
  · simp [hincluded]
  · obtain rfl := Version.flag_eq_false_of_not_included hincluded
    rw [exists_anchors_hyphenRange_iff hlow hhigh]

theorem faults_eq_nil_iff_forall {s : Segment} : s.faults = [] ↔
    (∀ c ∈ s.comparisons, c.faults = []) ∧ ∀ r ∈ s.hyphenRanges, r.faults = [] := by
  rw [faults, List.append_eq_nil_iff, List.flatMap_eq_nil_iff, List.flatMap_eq_nil_iff]

theorem faults_comparisons (r : HyphenRange) : (ofConditions r.comparisons).faults = r.faults := by
  have hsegment : ofConditions r.comparisons =
      ⟨[.ofComparator .ge r.low, .ofComparator .le r.high], []⟩ := rfl
  simp [hsegment, faults, Comparison.faults_ofComparator, HyphenRange.faults]

theorem faults_hyphenRange (r : HyphenRange) :
    (ofConditions [.hyphenRange r]).faults = r.faults := by
  have hsegment : ofConditions [.hyphenRange r] = ⟨[], [r]⟩ := rfl
  simp [hsegment, faults]

theorem faults_append_eq_nil_iff {s t : Segment} :
    (s ++ t).faults = [] ↔ s.faults = [] ∧ t.faults = [] := by
  simp only [faults_eq_nil_iff_forall, comparisons_append, hyphenRanges_append, List.mem_append,
    or_imp, forall_and]
  exact and_and_and_comm

end Segment

/-! ## Words -/

theorem Partial.Spells.append_ne_hyphen {ops cs : List Char} {p : Partial} (h : p.Spells cs)
    (hops : Operators ops) : ops ++ cs ≠ ['-'] := by
  have hhyphen : isOperatorChar '-' = false := by decide
  cases ops with
  | nil => exact h.ne_hyphen
  | cons d ds =>
    intro heq
    obtain ⟨rfl, -⟩ := List.cons.inj heq
    rw [hops _ List.mem_cons_self] at hhyphen
    exact absurd hhyphen (by decide)

theorem Operators.ne_hyphen {ops : List Char} (hops : Operators ops) : ops ≠ ['-'] := by
  rintro rfl
  exact absurd (hops '-' List.mem_cons_self) (by decide)

theorem ReadPhrase.ne_hyphen {w : List Char} {ws : List (List Char)} {c : Condition}
    (h : ReadPhrase (w :: ws) c) : w ≠ ['-'] := by
  rcases h with h | h
  · cases h with
    | word hops hspells => exact hspells.append_ne_hyphen hops
    | detached hops _ _ => exact hops.ne_hyphen
    | hyphenRange hlow _ => exact hlow.ne_hyphen
  · cases h with
    | split hfront _ _ _ _ => exact hfront.ne_hyphen

theorem not_sentence_hyphen {ws : List (List Char)} {cs : List Condition} :
    ¬ Sentence ReadPhrase (['-'] :: ws) cs := by
  intro h
  generalize hws : ['-'] :: ws = all at h
  cases h with
  | nil => exact absurd hws (by simp)
  | @cons phrase rest c cs hphrase _ =>
    cases phrase with
    | nil => exact absurd hphrase (by rintro (h | h) <;> cases h)
    | cons w phrase => exact hphrase.ne_hyphen (List.cons.inj hws).1.symm

theorem Partial.Spells.unique {cs : List Char} {p q : Partial} (hp : p.Spells cs)
    (hq : q.Spells cs) : p = q :=
  Option.some.inj ((read?_eq_some_iff.2 hp).symm.trans (read?_eq_some_iff.2 hq))

theorem ReadPhrase.length_le_three {ws : List (List Char)} {c : Condition} (h : ReadPhrase ws c) :
    ws.length ≤ 3 := by
  rcases h with h | h <;> cases h <;> simp

/-- A phrase that goes on with a hyphen after a partial version is a hyphen range, and starts with
that version. -/
theorem ReadPhrase.of_hyphen {as : List Char} {low : Partial} (hlow : low.Spells as)
    {ws back : List (List Char)} {c : Condition} (h : ReadPhrase (ws ++ as :: ['-'] :: back) c) :
    ws = [] ∧ ∃ bs high, back = [bs] ∧ high.Spells bs ∧ c = .hyphenRange ⟨low, high⟩ := by
  have hlength := h.length_le_three
  generalize hall : ws ++ as :: ['-'] :: back = all at h
  cases ws with
  | nil =>
    refine ⟨rfl, ?_⟩
    rcases h with h | h
    · cases h with
      | word => simp at hall
      | detached _ _ hspells =>
        obtain ⟨-, hhyphen, -⟩ : _ ∧ ['-'] = _ ∧ back = [] := by simpa using hall
        exact absurd hhyphen.symm hspells.ne_hyphen
      | @hyphenRange as' bs low' high' hlow' hhigh' =>
        obtain ⟨rfl, rfl⟩ : as = as' ∧ back = [bs] := by simpa using hall
        obtain rfl := hlow.unique hlow'
        exact ⟨bs, high', rfl, hhigh', rfl⟩
    · cases h with
      | split _ _ hback _ hspells =>
        obtain ⟨-, hhyphen, -⟩ : _ ∧ ['-'] = _ ∧ back = [] := by simpa using hall
        exact absurd hhyphen.symm (hspells.append_ne_hyphen hback)
  | cons w ws =>
    -- three words before the end of the phrase, so the partial version is its hyphen
    obtain ⟨rfl, rfl⟩ : ws = [] ∧ back = [] := by
      simp only [List.length_append, List.length_cons] at hlength
      exact ⟨List.eq_nil_of_length_eq_zero (by omega), List.eq_nil_of_length_eq_zero (by omega)⟩
    rcases h with h | h
    · cases h with
      | word => simp at hall
      | detached => simp at hall
      | hyphenRange =>
        obtain ⟨-, rfl, -⟩ : _ ∧ as = ['-'] ∧ _ := by simpa using hall
        exact absurd rfl hlow.ne_hyphen
    · cases h with
      | split => simp at hall

/-- The words of a hyphen range are its phrase wherever they stand: what precedes them and what
follows them fall into phrases by themselves. -/
theorem Sentence.exists_hyphenRange {as bs : List Char} {low high : Partial} (hlow : low.Spells as)
    (hhigh : high.Spells bs) {all : List (List Char)} {cs : List Condition}
    (h : Sentence ReadPhrase all cs) : ∀ {ws ws' : List (List Char)},
      all = ws ++ as :: ['-'] :: bs :: ws' →
      ∃ ds es, cs = ds ++ .hyphenRange ⟨low, high⟩ :: es ∧ Sentence ReadPhrase ws ds ∧
        Sentence ReadPhrase ws' es := by
  induction h with
  | nil =>
    intro ws ws' hall
    exact absurd hall (by simp)
  | @cons phrase rest c cs hphrase hrest ih =>
    intro ws ws' hall
    have hnext : ∀ middle, ws = phrase ++ middle → rest = middle ++ as :: ['-'] :: bs :: ws' →
        ∃ ds es, c :: cs = ds ++ .hyphenRange ⟨low, high⟩ :: es ∧ Sentence ReadPhrase ws ds ∧
          Sentence ReadPhrase ws' es := fun middle hws hrest => by
      obtain ⟨ds, es, rfl, hds, hes⟩ := ih hrest
      rw [hws]
      exact ⟨c :: ds, es, rfl, .cons hphrase hds, hes⟩
    rcases List.append_eq_append_iff.1 hall with ⟨middle, hws, hrest'⟩ | ⟨back, hback, htail⟩
    · exact hnext middle hws hrest'
    · -- the phrase reaches over the start of the hyphen range
      cases back with
      | nil => exact hnext [] (by simpa using hback.symm) htail.symm
      | cons w back =>
        rw [List.cons_append, List.cons.injEq] at htail
        obtain ⟨rfl, hhyphen⟩ := htail
        cases back with
        | nil =>
          obtain rfl : ['-'] :: bs :: ws' = rest := hhyphen
          exact absurd hrest not_sentence_hyphen
        | cons w' back =>
          rw [List.cons_append, List.cons.injEq] at hhyphen
          obtain ⟨rfl, hend⟩ := hhyphen
          rw [hback] at hphrase
          obtain ⟨rfl, bs', high', rfl, hhigh', rfl⟩ := hphrase.of_hyphen hlow
          rw [List.singleton_append, List.cons.injEq] at hend
          obtain ⟨rfl, rfl⟩ := hend
          obtain rfl := hhigh.unique hhigh'
          exact ⟨[], cs, rfl, .nil, hrest⟩

/-! ## Texts -/

/-- The second text is the first one with a hyphen range written as two comparisons. -/
inductive HyphenRange.Expands : List Char → List Char → Prop
  | expand {r : HyphenRange} {front range back ge gap le : List Char} :
      StartsBlank front.reverse → StartsBlank back → Condition.Spells range (.hyphenRange r) →
      Condition.Spells ge (.comparison (.ofComparator .ge r.low)) → gap ≠ [] → Gap gap →
      Condition.Spells le (.comparison (.ofComparator .le r.high)) →
      Expands (front ++ (range ++ back)) (front ++ (ge ++ (gap ++ (le ++ back))))

theorem Condition.Spells.words_hyphenRange {cs : List Char} {r : HyphenRange}
    (h : Spells cs (.hyphenRange r)) :
    ∃ as bs, words cs = [as, ['-'], bs] ∧ r.low.Spells as ∧ r.high.Spells bs := by
  have hphrase := h.phrase
  generalize words cs = ws at hphrase
  cases hphrase with
  | hyphenRange hlow hhigh => exact ⟨_, _, rfl, hlow, hhigh⟩

/-- A segment with a hyphen range is read with two comparisons in its place. -/
theorem HyphenRange.Expands.exists_read? {cs cs' : List Char} (h : Expands cs cs') {s : Segment}
    (hs : Segment.read? cs = some s) : ∃ (r : HyphenRange) (d e : Segment),
      s = d ++ (Segment.ofConditions [.hyphenRange r] ++ e) ∧
      Segment.read? cs' = some (d ++ (Segment.ofConditions r.comparisons ++ e)) := by
  obtain ⟨conditions, hsentence, rfl⟩ := Segment.read?_eq_some_iff.1 hs
  cases h with
  | @expand r front range back ge gap le hfront hback hrange hge hne hgap hle =>
    obtain ⟨as, bs, hwords, hlow, hhigh⟩ := hrange.words_hyphenRange
    have hall : words (front ++ (range ++ back)) =
        words front ++ as :: ['-'] :: bs :: words back := by
      rw [words_append_of_endsBlank hfront, words_append_of_startsBlank _ hback, hwords]
      rfl
    obtain ⟨ds, es, rfl, hds, hes⟩ := hsentence.exists_hyphenRange hlow hhigh hall
    refine ⟨r, .ofConditions ds, .ofConditions es, ?_, ?_⟩
    · rw [← Segment.ofConditions_append, ← Segment.ofConditions_append]
      rfl
    · have hexpanded : words (front ++ (ge ++ (gap ++ (le ++ back)))) =
          words front ++ (words ge ++ (words le ++ words back)) := by
        rw [words_append_of_endsBlank hfront,
          words_append_of_startsBlank _ (startsBlank_gap_append hne hgap _), words_gap_append hgap,
          words_append_of_startsBlank _ hback]
      refine Segment.read?_eq_some_iff.2 ⟨ds ++ (r.comparisons ++ es), ?_, ?_⟩
      · rw [hexpanded]
        exact hds.append (.cons (.inl hge.phrase) (.cons (.inl hle.phrase) hes))
      · rw [Segment.ofConditions_append, Segment.ofConditions_append]

/-- An outline has the two comparisons in the segment of the hyphen range, and is otherwise the
same. -/
theorem Outline.exists_parse_expanded {raw : String} {o : Outline} (ho : parse raw = .ok o)
    {before after : List (List Char)} {cs cs' : List Char}
    (hraw : alternatives raw.toList = before ++ cs :: after)
    (hexpands : HyphenRange.Expands cs cs') :
    ∃ (r : HyphenRange) (d e : Segment) (front back : List Segment),
      o.segments = front ++ (d ++ (.ofConditions [.hyphenRange r] ++ e)) :: back ∧
      parse (String.ofList (['|', '|'].intercalate (before ++ cs' :: after))) =
        .ok ⟨String.ofList (['|', '|'].intercalate (before ++ cs' :: after)),
          front ++ (d ++ (.ofConditions r.comparisons ++ e)) :: back⟩ := by
  obtain ⟨-, hsegments⟩ := parse_eq_ok_iff.1 ho
  rw [hraw, List.map_append, List.map_cons] at hsegments
  obtain ⟨front, rest, hrest, hfront, hread⟩ := List.map_eq_append_iff.1 hsegments.symm
  obtain ⟨s, back, rfl, hs, hback⟩ := List.map_eq_cons_iff.1 hread
  obtain ⟨r, d, e, rfl, hread'⟩ := hexpands.exists_read? hs.symm
  have hmap : (before ++ cs' :: after).map Segment.read? =
      (front ++ (d ++ (Segment.ofConditions r.comparisons ++ e)) :: back).map some := by
    rw [List.map_append, List.map_cons, List.map_append, List.map_cons, hfront, hread', hback]
  refine ⟨r, d, e, front, back, hrest, parse_eq_ok_iff.2 ⟨rfl, ?_⟩⟩
  rw [String.toList_ofList, alternatives_intercalate (by simp), hmap]
  intro cs hcs
  obtain ⟨s, -, hs⟩ := exists_mem_of_map_eq_map hmap hcs
  exact Segment.not_mem_bar_of_read? hs.symm

/-! ## Requirements -/

namespace Requirement

/-- A hyphen range can be built if the two comparisons can. -/
theorem exists_build_hyphenRange_iff {a b : String} {low high : Partial}
    (ha : Partial.read? a.toList = some low) (hb : Partial.read? b.toList = some high)
    (flag : Bool) : (∃ r, build (a ++ " - " ++ b) flag = .ok r) ↔
      ∃ r, build (">=" ++ a ++ " <=" ++ b) flag = .ok r := by
  have hlow := Partial.read?_eq_some_iff.1 ha
  have hhigh := Partial.read?_eq_some_iff.1 hb
  have hblank : Gap [' '] := by decide
  have hrange : Layout Condition.Spells (a ++ " - " ++ b).toList [.hyphenRange ⟨low, high⟩] := by
    have hspells := Condition.Spells.hyphenRange hlow (by decide) hblank (by decide) hblank hhigh
    have hlayout := Layout.cons gap_nil hspells (startsBlank_of_gap gap_nil) (.blank gap_nil)
    simpa using hlayout
  have hcomparisons : Layout Condition.Spells (">=" ++ a ++ " <=" ++ b).toList
      (HyphenRange.comparisons ⟨low, high⟩) := by
    have hge := Condition.spells_ofComparator .ge hlow
    have hle := Condition.spells_ofComparator .le hhigh
    have hlayout := Layout.cons gap_nil hge (startsBlank_gap_append (by decide) hblank _)
      (.cons hblank hle (startsBlank_of_gap gap_nil) (.blank gap_nil))
    simpa [Comparator.symbol, HyphenRange.comparisons] using hlayout
  rw [exists_build_iff_faults (Outline.parse_of_layout hrange),
    exists_build_iff_faults (Outline.parse_of_layout hcomparisons)]
  simp only [Outline.faults, List.flatMap_cons, List.flatMap_nil, List.append_nil,
    Segment.faults_comparisons, Segment.faults_hyphenRange]

/-- A hyphen range may be written as two comparisons wherever it stands. -/
theorem accepts_expanded {raw : String} {flag : Bool} {r : Requirement}
    (h : build raw flag = .ok r) {before after : List (List Char)} {cs cs' : List Char}
    (hraw : Outline.alternatives raw.toList = before ++ cs :: after)
    (hexpands : HyphenRange.Expands cs cs') : ∃ r',
      build (String.ofList (['|', '|'].intercalate (before ++ cs' :: after))) flag = .ok r' ∧
      ∀ v : Version, v.IsNatural → v.Ordinary true → r'.accepts v = r.accepts v := by
  obtain ⟨o, ho, hsound, haccepts⟩ := exists_outline_of_build h
  have hfaults := (exists_build_iff_faults ho flag).1 ⟨r, h⟩
  obtain ⟨range, d, e, front, back, hsegments, ho'⟩ :=
    Outline.exists_parse_expanded ho hraw hexpands
  -- the faults are those of the same parts
  rw [Outline.faults, hsegments] at hfaults
  obtain ⟨r', hr'⟩ := (exists_build_iff_faults ho' flag).2 (by
    simpa [Outline.faults, Segment.faults_append_eq_nil_iff, Segment.faults_comparisons,
      Segment.faults_hyphenRange] using hfaults)
  obtain ⟨hlow, hhigh⟩ : range.low.Shape ∧ range.high.Shape := by
    rw [hsegments] at hsound
    have hsegment := hsound _ (List.mem_append_right _ List.mem_cons_self)
    exact hsegment.hyphenRange range (List.mem_append_right _ List.mem_cons_self)
  refine ⟨r', hr', fun v hv hzero => ?_⟩
  obtain ⟨o', ho'', -, haccepts'⟩ := exists_outline_of_build hr'
  obtain rfl := Except.ok.inj (ho'.symm.trans ho'')
  rw [Bool.eq_iff_iff, haccepts, haccepts', hsegments]
  simp only [List.mem_append, List.mem_cons, or_and_right, exists_or, exists_eq_left]
  rw [Segment.admits_expanded_iff hlow hhigh hv hzero d e]

/-- **A hyphen range is the pair of comparisons that it abbreviates.** The two texts can be built
alike. In a requirement that can be built, any hyphen range may be written as two comparisons:
the answers are the same, but for the pre-releases of `0.0.0`, which `<=` may leave out. From a
version to itself it has the interval of equality. -/
theorem hyphenRange_abbreviates :
    (∀ (a b : String) (low high : Partial) (flag : Bool), Partial.read? a.toList = some low →
      Partial.read? b.toList = some high →
      ((∃ r, build (a ++ " - " ++ b) flag = .ok r) ↔
        ∃ r, build (">=" ++ a ++ " <=" ++ b) flag = .ok r)) ∧
    (∀ (raw : String) (flag : Bool) (r : Requirement) (before after : List (List Char))
      (cs cs' : List Char), build raw flag = .ok r →
      Outline.alternatives raw.toList = before ++ cs :: after → HyphenRange.Expands cs cs' →
      ∃ r', build (String.ofList (['|', '|'].intercalate (before ++ cs' :: after))) flag = .ok r' ∧
        ∀ v : Version, v.IsNatural → v.Ordinary true → r'.accepts v = r.accepts v) ∧
    ∀ (p : Partial) (flag : Bool), Interval.between p p flag = Comparator.eq.interval p flag := by
  refine ⟨fun a b low high flag ha hb => exists_build_hyphenRange_iff ha hb flag, ?_,
    Interval.between_self⟩
  intro raw flag r before after cs cs' h hraw hexpands
  exact accepts_expanded h hraw hexpands

theorem hyphenRange_abbreviates_prerelease : ∃ r r',
    build "1.x || 1.2.3-beta - 2 <1.9" false = .ok r ∧
    build "1.x || >=1.2.3-beta <=2 <1.9" false = .ok r' ∧
    r'.accepts ⟨⟨1, 2, 3⟩, ["rc"], []⟩ = r.accepts ⟨⟨1, 2, 3⟩, ["rc"], []⟩ ∧
    r.accepts ⟨⟨1, 2, 3⟩, ["rc"], []⟩ = true := by
  obtain ⟨r, hr, haccepts⟩ : ∃ r, build "1.x || 1.2.3-beta - 2 <1.9" false = .ok r ∧
      r.accepts ⟨⟨1, 2, 3⟩, ["rc"], []⟩ = true := exists_build_of_accepts (by decide +kernel)
  have hlow : (⟨"1", some "2", some "3", ["beta"], []⟩ : Partial).Spells "1.2.3-beta".toList :=
    Partial.read?_eq_some_iff.1 (by decide +kernel)
  have hhigh : (⟨"2", none, none, [], []⟩ : Partial).Spells "2".toList :=
    Partial.read?_eq_some_iff.1 (by decide +kernel)
  have hrange : Condition.Spells
      ("1.2.3-beta".toList ++ ([' '] ++ (['-'] ++ ([' '] ++ "2".toList)))) (.hyphenRange ⟨_, _⟩) :=
    .hyphenRange hlow (by decide) (by decide) (by decide) (by decide) hhigh
  have hexpands : HyphenRange.Expands ([' '] ++ (_ ++ " <1.9".toList))
      ([' '] ++ (_ ++ ([' '] ++ (_ ++ " <1.9".toList)))) :=
    .expand (by decide) (by decide) hrange (Condition.spells_ofComparator .ge hlow) (by decide)
      (by decide) (Condition.spells_ofComparator .le hhigh)
  obtain ⟨-, h, -⟩ := hyphenRange_abbreviates
  obtain ⟨r', hr', hsame⟩ := h _ _ _ ["1.x ".toList] [] _ _ hr (by decide) hexpands
  have hv : (⟨⟨1, 2, 3⟩, ["rc"], []⟩ : Version).IsNatural := ⟨by decide, by decide, by decide⟩
  exact ⟨r, r', hr, hr', hsame _ hv (.inr ⟨rfl, by decide⟩), haccepts⟩

end Requirement

end SemverRange
