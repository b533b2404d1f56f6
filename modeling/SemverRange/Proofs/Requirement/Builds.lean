import SemverRange.Proofs.Band.Builds
import SemverRange.Proofs.Requirement.Faults
import SemverRange.Proofs.Requirement.Layout

/-!
# Build identifiers in requirements

**Deleting builds** (`dropBuilds`). A `+` and the characters of identifiers and points behind it are
deleted. In a text that is read as a segment a `+` stands only in front of the build of a partial
version, and behind that the word ends: what is deleted is the builds and nothing else.

**What is left.** A deletion ends at a blank or a bar, so it goes word by word, and alternative by
alternative. The word of a partial version spells it without its build (`Spells.dropBuilds`), and no
word vanishes. So the outline is the same but for the builds (`Outline.parse_withoutBuilds`).

**Answers.** Without builds nothing new is wrong with the conditions, and their leaves are the same
but for the builds of the bounds, which do not count.

Main result: `Requirement.accepts_ignores_builds`.
-/

namespace SemverRange

open Text

/-! ## Deleting builds -/

/-- The characters of the identifiers of a build, and the points between them. -/
def isBuildChar (c : Char) : Bool := Written.isIdentifierChar c || c == '.'

/-- The text without each `+` and the build characters behind it; `inside` says whether a `+` came
before. -/
def dropBuilds (inside : Bool) : List Char → List Char
  | [] => []
  | c :: cs =>
    if c = '+' then dropBuilds true cs
    else if inside && isBuildChar c then dropBuilds true cs
    else c :: dropBuilds false cs

/-- The text of a requirement without builds. -/
def withoutBuilds (raw : String) : String := String.ofList (dropBuilds false raw.toList)

theorem mem_of_mem_dropBuilds {d : Char} {inside : Bool} {cs : List Char}
    (h : d ∈ dropBuilds inside cs) : d ∈ cs := by
  induction cs generalizing inside with
  | nil => exact absurd h List.not_mem_nil
  | cons c cs ih =>
    unfold dropBuilds at h
    split at h
    · exact List.mem_cons_of_mem c (ih h)
    · split at h
      · exact List.mem_cons_of_mem c (ih h)
      · rcases List.mem_cons.1 h with rfl | h
        · exact List.mem_cons_self
        · exact List.mem_cons_of_mem c (ih h)

theorem dropBuilds_append {cs : List Char} (h : '+' ∉ cs) (rest : List Char) :
    dropBuilds false (cs ++ rest) = cs ++ dropBuilds false rest := by
  induction cs with
  | nil => rfl
  | cons c cs ih =>
    rw [List.mem_cons, not_or] at h
    rw [List.cons_append, dropBuilds, if_neg (Ne.symm h.1), Bool.false_and,
      if_neg Bool.false_ne_true, ih h.2, List.cons_append]

theorem dropBuilds_eq_self {cs : List Char} (h : '+' ∉ cs) : dropBuilds false cs = cs := by
  have hcs := dropBuilds_append h []
  rwa [List.append_nil, dropBuilds, List.append_nil] at hcs

theorem dropBuilds_build {cs : List Char} (h : ∀ c ∈ cs, isBuildChar c = true) :
    dropBuilds true cs = [] := by
  induction cs with
  | nil => rfl
  | cons c cs ih =>
    have hc := h c List.mem_cons_self
    rw [dropBuilds, Bool.true_and, if_pos hc, ite_self]
    exact ih fun d hd => h d (List.mem_cons_of_mem c hd)

/-- Nothing, or a text that does not go on with a build. -/
def EndsBuild (rest : List Char) : Prop := ∀ c ∈ rest.head?, c ≠ '+' ∧ isBuildChar c = false

/-- A deletion ends where the text does not go on with a build. -/
theorem dropBuilds_append_of_endsBuild (inside : Bool) (cs : List Char) {rest : List Char}
    (h : EndsBuild rest) :
    dropBuilds inside (cs ++ rest) = dropBuilds inside cs ++ dropBuilds false rest := by
  induction cs generalizing inside with
  | nil =>
    cases rest with
    | nil => rfl
    | cons c rest =>
      obtain ⟨hplus, hbuild⟩ := h c rfl
      simp [dropBuilds, hplus, hbuild]
  | cons c cs ih =>
    rw [List.cons_append, dropBuilds, dropBuilds]
    split
    · exact ih true
    · split
      · exact ih true
      · rw [ih false, List.cons_append]

/-! ## Partial versions -/

theorem Written.isBuildChar_of_mem_dotted {ids : List (List Char)}
    (h : ∀ id ∈ ids, isIdentifier id = true) {c : Char} (hc : c ∈ dotted ids) :
    isBuildChar c = true := by
  rw [isBuildChar, Bool.or_eq_true, beq_iff_eq]
  by_contra hnot
  rw [not_or] at hnot
  refine not_mem_dotted hnot.2 (fun id hid hmem => hnot.1 ?_) hc
  exact Partial.isIdentifierChar_of_isIdentifier (h id hid) c hmem

/-- What is deleted from a version is its build. -/
theorem Written.dropBuilds_text {w : Written} (hw : w.WellFormed) :
    dropBuilds false w.text = ({ w with build := [] } : Written).text := by
  have hcore : '+' ∉ dotted w.core := not_mem_dotted (by decide) fun piece hpiece =>
    (hw.core piece hpiece).2.2
  have hprerelease : '+' ∉ qualifier '-' w.prerelease := not_mem_qualifier (by decide) (by decide)
    fun id hid => (not_mem_of_isIdentifier (hw.prerelease id hid)).2
  have hbuild : dropBuilds false (qualifier '+' w.build) = [] := by
    unfold qualifier
    split
    · rfl
    · rw [dropBuilds, if_pos rfl]
      exact dropBuilds_build fun c hc => isBuildChar_of_mem_dotted hw.build hc
  rw [text, text, dropBuilds_append (by simp [hcore, hprerelease]), hbuild]
  rfl

theorem Partial.Spells.dropBuilds {cs : List Char} {p : Partial} (h : p.Spells cs) :
    p.withoutBuild.Spells (dropBuilds false cs) := by
  obtain ⟨hp, htext⟩ := h
  have hpieces : SemverRange.dropBuilds false p.pieces.text = p.withoutBuild.pieces.text :=
    Written.dropBuilds_text (wellFormed_pieces hp)
  refine ⟨hp.withoutBuild, ?_⟩
  rcases htext with rfl | rfl
  · exact .inl hpieces
  · refine .inr ?_
    rw [← hpieces]
    rfl

/-! ## Conditions -/

namespace Comparison

/-- The comparison with a version without build identifiers. -/
def withoutBuild (c : Comparison) : Comparison := { c with version := c.version.withoutBuild }

theorem comparator?_withoutBuild (c : Comparison) :
    c.withoutBuild.comparator? = c.comparator? := rfl

end Comparison

namespace HyphenRange

/-- The hyphen range between versions without build identifiers. -/
def withoutBuild (r : HyphenRange) : HyphenRange := ⟨r.low.withoutBuild, r.high.withoutBuild⟩

end HyphenRange

namespace Condition

/-- The condition on versions without build identifiers. -/
def withoutBuild : Condition → Condition
  | comparison c => comparison c.withoutBuild
  | hyphenRange r => hyphenRange r.withoutBuild

end Condition

namespace Segment

/-- The segment with no build identifiers. -/
def withoutBuild (s : Segment) : Segment :=
  ⟨s.comparisons.map Comparison.withoutBuild, s.hyphenRanges.map HyphenRange.withoutBuild⟩

theorem ofConditions_withoutBuild (cs : List Condition) :
    ofConditions (cs.map Condition.withoutBuild) = (ofConditions cs).withoutBuild := by
  have hcomparison : Condition.comparison? ∘ Condition.withoutBuild =
      Option.map Comparison.withoutBuild ∘ Condition.comparison? := by
    funext c
    cases c <;> rfl
  have hrange : Condition.hyphenRange? ∘ Condition.withoutBuild =
      Option.map HyphenRange.withoutBuild ∘ Condition.hyphenRange? := by
    funext c
    cases c <;> rfl
  rw [ofConditions, ofConditions, withoutBuild, List.filterMap_map, List.filterMap_map, hcomparison,
    hrange, List.map_filterMap, List.map_filterMap]
  rfl

end Segment

/-! ## Words -/

theorem Operators.dropBuilds_append {ops : List Char} (hops : Operators ops) (cs : List Char) :
    dropBuilds false (ops ++ cs) = ops ++ dropBuilds false cs :=
  SemverRange.dropBuilds_append (fun hmem => absurd (hops '+' hmem) (by decide)) cs

theorem Operators.dropBuilds {ops : List Char} (hops : Operators ops) :
    dropBuilds false ops = ops :=
  dropBuilds_eq_self fun hmem => absurd (hops '+' hmem) (by decide)

/-- A phrase without builds is a phrase of the condition without builds. -/
theorem ReadPhrase.dropBuilds {ws : List (List Char)} {c : Condition} (h : ReadPhrase ws c) :
    ReadPhrase (ws.map (dropBuilds false)) c.withoutBuild := by
  rcases h with h | h
  · refine .inl ?_
    cases h with
    | word hops hspells =>
      rw [List.map_singleton, hops.dropBuilds_append]
      exact .word hops hspells.dropBuilds
    | detached hops hne hspells =>
      rw [List.map_cons, List.map_singleton, hops.dropBuilds]
      exact .detached hops hne hspells.dropBuilds
    | hyphenRange hlow hhigh => exact .hyphenRange hlow.dropBuilds hhigh.dropBuilds
  · refine .inr ?_
    cases h with
    | split hfront hfne hback hbne hspells =>
      rw [List.map_cons, List.map_singleton, hfront.dropBuilds, hback.dropBuilds_append]
      exact .split hfront hfne hback hbne hspells.dropBuilds

theorem ReadPhrase.ne_nil {ws : List (List Char)} {c : Condition} (h : ReadPhrase ws c) :
    ∀ w ∈ ws, w ≠ [] := by
  rcases h with h | h
  · cases h with
    | word _ hspells => simp [hspells.ne_nil]
    | detached _ hne hspells => simp [hne, hspells.ne_nil]
    | hyphenRange hlow hhigh => simp [hlow.ne_nil, hhigh.ne_nil]
  · cases h with
    | split _ hfne _ hbne _ => simp [hfne, hbne]

theorem ne_plus_of_isBlank {c : Char} (h : isBlank c = true) : c ≠ '+' := by
  rintro rfl
  exact absurd h (by decide)

theorem Text.StartsBlank.endsBuild {rest : List Char} (h : StartsBlank rest) : EndsBuild rest := by
  intro c hc
  have hblank := h c hc
  refine ⟨ne_plus_of_isBlank hblank, ?_⟩
  rw [isBuildChar, Written.isIdentifierChar_of_isBlank hblank, Bool.false_or, beq_eq_false_iff_ne]
  rintro rfl
  exact absurd hblank (by decide)

theorem Text.StartsBlank.dropBuilds {rest : List Char} (h : StartsBlank rest) :
    StartsBlank (dropBuilds false rest) := by
  cases rest with
  | nil => exact h
  | cons c rest =>
    have hc := h c rfl
    rw [SemverRange.dropBuilds, if_neg (ne_plus_of_isBlank hc), Bool.false_and,
      if_neg Bool.false_ne_true]
    exact startsBlank_gap_append (List.cons_ne_nil c []) (List.forall_mem_singleton.2 hc) _

/-- Deleting builds goes word by word, if no word vanishes. -/
theorem words_dropBuilds {ws : List (List Char)} (hne : ∀ w ∈ ws, dropBuilds false w ≠ []) :
    ∀ {cs : List Char}, words cs = ws →
      words (dropBuilds false cs) = ws.map (dropBuilds false) := by
  have hplus : ∀ {gap : List Char}, Gap gap → '+' ∉ gap := fun hgap hmem =>
    ne_plus_of_isBlank (hgap '+' hmem) rfl
  induction ws with
  | nil =>
    intro cs hcs
    have hgap := words_eq_nil_iff.1 hcs
    rw [dropBuilds_eq_self (hplus hgap), words_gap hgap]
    rfl
  | cons w ws ih =>
    intro cs hcs
    obtain ⟨gap, rest, rfl, hgap, hw, hrest, hws⟩ := words_eq_cons hcs
    have hword : IsWord (dropBuilds false w) :=
      ⟨hne w List.mem_cons_self, fun c hc => hw.2 c (mem_of_mem_dropBuilds hc)⟩
    rw [dropBuilds_append (hplus hgap), words_gap_append hgap,
      dropBuilds_append_of_endsBuild false w hrest.endsBuild, words_word_append hword
      hrest.dropBuilds, ih (fun v hv => hne v (List.mem_cons_of_mem w hv)) hws, List.map_cons]

/-- A segment without builds is read from the text without builds. -/
theorem Segment.read?_dropBuilds {cs : List Char} {s : Segment} (h : read? cs = some s) :
    read? (dropBuilds false cs) = some s.withoutBuild := by
  obtain ⟨conditions, hsentence, rfl⟩ := read?_eq_some_iff.1 h
  have hsentence' := hsentence.map fun _ _ hphrase => ReadPhrase.dropBuilds hphrase
  have hwords : ∀ w ∈ (words cs).map (dropBuilds false), w ≠ [] :=
    hsentence'.forall_mem fun _ _ hphrase => hphrase.ne_nil
  have hne : ∀ w ∈ words cs, dropBuilds false w ≠ [] := fun w hw =>
    hwords _ (List.mem_map_of_mem hw)
  refine read?_eq_some_iff.2 ⟨conditions.map Condition.withoutBuild, ?_,
    (ofConditions_withoutBuild conditions).symm⟩
  rwa [words_dropBuilds hne rfl]

/-! ## Alternatives -/

namespace Outline

/-- Deleting builds goes alternative by alternative. -/
theorem dropBuilds_intercalate (texts : List (List Char)) :
    dropBuilds false (['|', '|'].intercalate texts) =
      ['|', '|'].intercalate (texts.map (dropBuilds false)) := by
  induction texts with
  | nil => rfl
  | cons cs texts ih =>
    cases texts with
    | nil => simp
    | cons ds texts =>
      have hbars : EndsBuild (['|', '|'] ++ ['|', '|'].intercalate (ds :: texts)) := by
        intro c hc
        obtain rfl : '|' = c := Option.some.inj hc
        decide
      rw [List.intercalate_cons_cons, List.append_assoc,
        dropBuilds_append_of_endsBuild false cs hbars, dropBuilds_append (by decide), ih]
      simp only [List.map_cons, List.intercalate_cons_cons, List.append_assoc]

/-- The outline without builds is read from the text without builds. -/
theorem parse_withoutBuilds {raw : String} {o : Outline} (h : parse raw = .ok o) :
    parse (withoutBuilds raw) =
      .ok ⟨withoutBuilds raw, o.segments.map Segment.withoutBuild⟩ := by
  obtain ⟨-, hsegments⟩ := parse_eq_ok_iff.1 h
  have hread : ∀ cs ∈ alternatives raw.toList,
      Segment.read? (dropBuilds false cs) = (Segment.read? cs).map Segment.withoutBuild := by
    intro cs hcs
    obtain ⟨s, -, hs⟩ := exists_mem_of_map_eq_map hsegments hcs
    rw [← hs, Option.map_some]
    exact Segment.read?_dropBuilds hs.symm
  have hbars : ∀ cs ∈ (alternatives raw.toList).map (dropBuilds false), '|' ∉ cs := by
    intro cs hcs hbar
    obtain ⟨ds, hds, rfl⟩ := List.mem_map.1 hcs
    obtain ⟨s, -, hs⟩ := exists_mem_of_map_eq_map hsegments hds
    exact Segment.not_mem_bar_of_read? hs.symm (mem_of_mem_dropBuilds hbar)
  have halternatives : alternatives (withoutBuilds raw).toList =
      (alternatives raw.toList).map (dropBuilds false) := by
    rw [withoutBuilds, String.toList_ofList, ← intercalate_alternatives raw.toList,
      dropBuilds_intercalate, alternatives_intercalate _ hbars, intercalate_alternatives]
    simpa using alternatives_ne_nil raw.toList
  refine parse_eq_ok_iff.2 ⟨rfl, ?_⟩
  calc (alternatives (withoutBuilds raw).toList).map Segment.read?
      = (alternatives raw.toList).map fun cs => (Segment.read? cs).map Segment.withoutBuild := by
        rw [halternatives, List.map_map]
        exact List.map_congr_left hread
    _ = ((alternatives raw.toList).map Segment.read?).map (Option.map Segment.withoutBuild) := by
        rw [List.map_map]
        rfl
    _ = (o.segments.map Segment.withoutBuild).map some := by
        rw [hsegments, List.map_map, List.map_map]
        rfl

end Outline

/-! ## Answers -/

namespace Segment

variable {s : Segment} {flag : Bool}

theorem HasLeaf.withoutBuild {l : Leaf} (h : s.HasLeaf flag l) :
    s.withoutBuild.HasLeaf flag l.withoutBuild := by
  cases h with
  | @comparison c k hc hk =>
    have hleaf : s.withoutBuild.HasLeaf flag _ :=
      .comparison (List.mem_map_of_mem hc) (c.comparator?_withoutBuild.trans hk)
    rwa [Comparison.withoutBuild, Comparator.extent_withoutBuild] at hleaf
  | @hyphenRange r hr =>
    have hleaf : s.withoutBuild.HasLeaf flag _ := .hyphenRange (List.mem_map_of_mem hr)
    rwa [HyphenRange.withoutBuild, Interval.span_withoutBuild] at hleaf

theorem HasLeaf.exists_withoutBuild {l : Leaf} (h : s.withoutBuild.HasLeaf flag l) :
    ∃ l', s.HasLeaf flag l' ∧ l = l'.withoutBuild := by
  cases h with
  | comparison hmem hk =>
    obtain ⟨c, hc, rfl⟩ := List.mem_map.1 hmem
    refine ⟨_, .comparison hc hk, ?_⟩
    rw [Leaf.withoutBuild, Comparison.withoutBuild, Comparator.extent_withoutBuild]
  | hyphenRange hmem =>
    obtain ⟨r, hr, rfl⟩ := List.mem_map.1 hmem
    refine ⟨_, .hyphenRange hr, ?_⟩
    rw [Leaf.withoutBuild, HyphenRange.withoutBuild, Interval.span_withoutBuild]

/-- Builds of the bounds make no difference to what a segment admits. -/
theorem admits_withoutBuild_iff {v : Version} :
    s.withoutBuild.Admits flag v ↔ s.Admits flag v := by
  constructor
  · rintro ⟨haccepts, hanchors⟩
    refine ⟨fun l hl => ?_, hanchors.imp_right ?_⟩
    · rw [← Leaf.accepts_withoutBuild]
      exact haccepts _ hl.withoutBuild
    · rintro ⟨l, hl, hanchors⟩
      obtain ⟨l', hl', rfl⟩ := hl.exists_withoutBuild
      exact ⟨l', hl', by rwa [Leaf.anchors_withoutBuild] at hanchors⟩
  · rintro ⟨haccepts, hanchors⟩
    refine ⟨fun l hl => ?_, hanchors.imp_right ?_⟩
    · obtain ⟨l', hl', rfl⟩ := hl.exists_withoutBuild
      rw [Leaf.accepts_withoutBuild]
      exact haccepts l' hl'
    · rintro ⟨l, hl, hanchors⟩
      exact ⟨_, hl.withoutBuild, by rwa [Leaf.anchors_withoutBuild]⟩

/-- The build of a version makes no difference to whether a segment admits it. -/
theorem admits_congr {v w : Version} (htriple : v.toTriple = w.toTriple)
    (hprerelease : v.prerelease = w.prerelease) : s.Admits flag v ↔ s.Admits flag w := by
  have h := Version.withoutBuild_eq_of_eq htriple hprerelease
  have hincluded : v.Included flag ↔ w.Included flag := by
    rw [Version.Included, Version.Included, Version.isRelease_iff, Version.isRelease_iff,
      hprerelease]
  simp only [Admits, Leaf.accepts_congr _ h, Leaf.anchors_congr _ h, hincluded]

/-- Without builds nothing new is wrong with a segment. -/
theorem faults_withoutBuild (h : s.faults = []) : s.withoutBuild.faults = [] := by
  obtain ⟨hcomparisons, hranges⟩ := List.append_eq_nil_iff.1 h
  refine List.append_eq_nil_iff.2 ⟨List.flatMap_eq_nil_iff.2 ?_, List.flatMap_eq_nil_iff.2 ?_⟩
  · intro _ hmem
    obtain ⟨c, hc, rfl⟩ := List.mem_map.1 hmem
    obtain ⟨hsymbol, hversion⟩ :=
      List.append_eq_nil_iff.1 (List.flatMap_eq_nil_iff.1 hcomparisons c hc)
    exact List.append_eq_nil_iff.2 ⟨hsymbol, Partial.faults_withoutBuild hversion⟩
  · intro _ hmem
    obtain ⟨r, hr, rfl⟩ := List.mem_map.1 hmem
    obtain ⟨hlow, hhigh⟩ := List.append_eq_nil_iff.1 (List.flatMap_eq_nil_iff.1 hranges r hr)
    exact List.append_eq_nil_iff.2
      ⟨Partial.faults_withoutBuild hlow, Partial.faults_withoutBuild hhigh⟩

end Segment

theorem Outline.faults_withoutBuilds {o : Outline} (h : o.faults = []) (raw : String) :
    (⟨raw, o.segments.map Segment.withoutBuild⟩ : Outline).faults = [] := by
  refine List.flatMap_eq_nil_iff.2 fun _ hmem => ?_
  obtain ⟨s, hs, rfl⟩ := List.mem_map.1 hmem
  exact Segment.faults_withoutBuild (List.flatMap_eq_nil_iff.1 h s hs)

namespace Requirement

/-- **Builds make no difference to the answers.** Versions that differ in build alone are both
accepted or both refused. If the builds are deleted from a text that can be built, the outline is
the same without builds, and what is built from it accepts the same versions. -/
theorem accepts_ignores_builds {raw : String} {flag : Bool} {r : Requirement}
    (h : build raw flag = .ok r) :
    (∀ v w, v.toTriple = w.toTriple → v.prerelease = w.prerelease → r.accepts v = r.accepts w) ∧
    ∃ o r', Outline.parse raw = .ok o ∧
      Outline.parse (withoutBuilds raw) =
        .ok ⟨withoutBuilds raw, o.segments.map Segment.withoutBuild⟩ ∧
      build (withoutBuilds raw) flag = .ok r' ∧ ∀ v, r'.accepts v = r.accepts v := by
  obtain ⟨o, ho, -, haccepts⟩ := exists_outline_of_build h
  have ho' := Outline.parse_withoutBuilds ho
  have hfaults := (exists_build_iff_faults ho flag).1 ⟨r, h⟩
  obtain ⟨r', hr'⟩ :=
    (exists_build_iff_faults ho' flag).2 (Outline.faults_withoutBuilds hfaults _)
  obtain ⟨p, hp, -, haccepts'⟩ := exists_outline_of_build hr'
  obtain rfl := Except.ok.inj (ho'.symm.trans hp)
  refine ⟨fun v w htriple hprerelease => ?_, o, r', ho, ho', hr', fun v => ?_⟩
  · rw [Bool.eq_iff_iff, haccepts, haccepts]
    exact exists_congr fun s => and_congr_right fun _ => Segment.admits_congr htriple hprerelease
  · rw [Bool.eq_iff_iff, haccepts, haccepts']
    simp only [List.mem_map, exists_exists_and_eq_and, Segment.admits_withoutBuild_iff]

theorem accepts_ignores_builds_bounds : ∃ r r',
    build "=1.2.3+a.1||v2.0.0-b+c - 3" false = .ok r ∧
    build "=1.2.3||v2.0.0-b - 3" false = .ok r' ∧
    (∀ v, r'.accepts v = r.accepts v) ∧
    r.accepts ⟨⟨1, 2, 3⟩, [], ["x"]⟩ = r.accepts ⟨⟨1, 2, 3⟩, [], ["a", "1"]⟩ ∧
    r.accepts ⟨⟨1, 2, 3⟩, [], ["a", "1"]⟩ = true := by
  obtain ⟨r, hr, hv⟩ : ∃ r, build "=1.2.3+a.1||v2.0.0-b+c - 3" false = .ok r ∧
      r.accepts ⟨⟨1, 2, 3⟩, [], ["a", "1"]⟩ = true := exists_build_of_accepts (by decide +kernel)
  obtain ⟨hversions, -, r', -, -, hr', haccepts⟩ := accepts_ignores_builds hr
  have htext : withoutBuilds "=1.2.3+a.1||v2.0.0-b+c - 3" = "=1.2.3||v2.0.0-b - 3" := by
    decide +kernel
  rw [htext] at hr'
  exact ⟨r, r', hr, hr', haccepts, hversions _ _ rfl rfl, hv⟩

end Requirement

end SemverRange
