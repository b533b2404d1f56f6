import Mathlib.Data.List.Forall2
import SemverRange.Proofs.Requirement.Phrases

/-!
# Laying out requirements

**Spelling** (`Condition.Spells`). A condition is spelled as a partial version, as an operator and
a partial version with any blanks between them, or as two partial versions with a hyphen between
them that has blanks on both sides.

**Layout** (`Layout`). The conditions of a segment stand one after the other, separated by at
least one blank, with any blanks around them. The segments of a requirement are joined by `||`.

The words of a layout are the phrases of its conditions, and a text whose words are phrases is a
layout (`sentence_of_layout`, `layout_of_sentence`).

**Alternatives.** Bars put the alternatives of a text together again
(`Outline.intercalate_alternatives`), and a text that is read as a segment holds no bar.

Main result: `Outline.parse_of_layouts`. A requirement is read as what it was laid out from.
-/

namespace SemverRange

open Text

/-- A text that writes one condition. -/
inductive Condition.Spells : List Char → Condition → Prop
  | bare {cs : List Char} {p : Partial} : p.Spells cs → Spells cs (.comparison ⟨none, p⟩)
  | operator {ops gap cs : List Char} {p : Partial} : Operators ops → ops ≠ [] → Gap gap →
      p.Spells cs → Spells (ops ++ (gap ++ cs)) (.comparison ⟨some (String.ofList ops), p⟩)
  | hyphenRange {as gap gap' bs : List Char} {low high : Partial} : low.Spells as → gap ≠ [] →
      Gap gap → gap' ≠ [] → Gap gap' → high.Spells bs →
      Spells (as ++ (gap ++ (['-'] ++ (gap' ++ bs)))) (.hyphenRange ⟨low, high⟩)

/-- A text that writes conditions, one after the other with blanks between them; `R` relates a
condition to its texts. -/
inductive Layout (R : List Char → Condition → Prop) : List Char → List Condition → Prop
  | blank {gap : List Char} : Gap gap → Layout R gap []
  | cons {gap cs rest : List Char} {c : Condition} {conditions : List Condition} : Gap gap →
      R cs c → StartsBlank rest → Layout R rest conditions →
      Layout R (gap ++ (cs ++ rest)) (c :: conditions)

/-! ## Words of spellings -/

theorem Partial.Spells.isWord {cs : List Char} {p : Partial} (h : p.Spells cs) : IsWord cs :=
  isWord_of_not_mem h.ne_nil fun _ => h.not_mem

theorem Operators.isWord {ops : List Char} (h : Operators ops) (hne : ops ≠ []) : IsWord ops :=
  ⟨hne, fun c hc => isBlank_of_isOperatorChar (h c hc)⟩

theorem isWord_hyphen : IsWord ['-'] := ⟨by decide, List.forall_mem_singleton.2 (by decide)⟩

theorem Operators.isWord_append {ops cs : List Char} (hops : Operators ops) (hcs : IsWord cs) :
    IsWord (ops ++ cs) := by
  refine ⟨by simp [hcs.1], fun c hc => ?_⟩
  rcases List.mem_append.1 hc with hc | hc
  · exact isBlank_of_isOperatorChar (hops c hc)
  · exact hcs.2 c hc

theorem words_word_gap_append {w gap rest : List Char} (hw : IsWord w) (hne : gap ≠ [])
    (hgap : Gap gap) : words (w ++ (gap ++ rest)) = w :: words rest := by
  rw [words_word_append hw (startsBlank_gap_append hne hgap rest), words_gap_append hgap]

theorem symbol?_of_ne_nil {ops : List Char} (h : ops ≠ []) :
    symbol? ops = some (String.ofList ops) := by
  rw [symbol?, if_neg (by simpa using h)]

/-- The words of a spelling are a phrase. -/
theorem Condition.Spells.phrase {cs : List Char} {c : Condition} (h : Spells cs c) :
    Phrase (words cs) c := by
  cases h with
  | bare hspells =>
    rw [words_of_isWord hspells.isWord]
    have hops : Operators [] := by decide
    exact .word hops hspells
  | @operator ops gap cs p hops hne hgap hspells =>
    rw [← symbol?_of_ne_nil hne]
    cases gap with
    | nil =>
      rw [List.nil_append, words_of_isWord (hops.isWord_append hspells.isWord)]
      exact .word hops hspells
    | cons b gap =>
      rw [words_word_gap_append (hops.isWord hne) (List.cons_ne_nil b gap) hgap,
        words_of_isWord hspells.isWord]
      exact .detached hops hne hspells
  | hyphenRange hlow hne hgap hne' hgap' hhigh =>
    rw [words_word_gap_append hlow.isWord hne hgap, words_word_gap_append isWord_hyphen hne' hgap',
      words_of_isWord hhigh.isWord]
    exact .hyphenRange hlow hhigh

/-! ## Layouts -/

theorem sentence_of_layout {R : List Char → Condition → Prop}
    {S : List (List Char) → Condition → Prop} (hR : ∀ cs c, R cs c → S (words cs) c)
    {cs : List Char} {conditions : List Condition} (h : Layout R cs conditions) :
    Sentence S (words cs) conditions := by
  induction h with
  | blank hgap =>
    rw [words_gap hgap]
    exact .nil
  | cons hgap hr hrest _ ih =>
    rw [words_gap_append hgap, words_append_of_startsBlank _ hrest]
    exact .cons (hR _ _ hr) ih

theorem Condition.Spells.flush {cs : List Char} {c : Condition} (h : Spells cs c) :
    Flush cs ∧ Flush cs.reverse := by
  cases h with
  | bare hspells => exact ⟨hspells.isWord.flush, hspells.isWord.reverse.flush⟩
  | operator hops hne _ hspells =>
    refine ⟨(hops.isWord hne).flush_append _, ?_⟩
    rw [List.reverse_append, List.reverse_append, List.append_assoc]
    exact hspells.isWord.reverse.flush_append _
  | hyphenRange hlow _ _ _ _ hhigh =>
    refine ⟨hlow.isWord.flush_append _, ?_⟩
    rw [List.reverse_append, List.reverse_append, List.reverse_append, List.reverse_append]
    simp only [List.append_assoc]
    exact hhigh.isWord.reverse.flush_append _

/-- A text lays out one condition if it spells it when it is trimmed. -/
theorem layout_singleton_iff {cs : List Char} {c : Condition} :
    Layout Condition.Spells cs [c] ↔ Condition.Spells (trim cs) c := by
  constructor
  · intro h
    cases h with
    | cons hgap hspells _ hrest =>
      cases hrest with
      | blank hgap' =>
        obtain ⟨hfront, hback⟩ := hspells.flush
        rwa [trim_eq_iff.2 ⟨hfront, hback, _, _, hgap, hgap', rfl⟩]
  · intro h
    obtain ⟨-, -, gap, gap', hgap, hgap', hcs⟩ := trim_eq_iff.1 (rfl : trim cs = _)
    rw [hcs]
    exact .cons hgap h (startsBlank_of_gap hgap') (.blank hgap')

/-- Texts that start with the words of a condition start with a text of the condition. -/
def Cuts (R : List Char → Condition → Prop) (S : List (List Char) → Condition → Prop) : Prop :=
  ∀ ws c, S ws c → ∀ cs rest, words cs = ws ++ rest →
    ∃ gap as tail, cs = gap ++ (as ++ tail) ∧ Gap gap ∧ R as c ∧ StartsBlank tail ∧
      words tail = rest

theorem layout_of_sentence {R : List Char → Condition → Prop}
    {S : List (List Char) → Condition → Prop} (hcuts : Cuts R S) {ws : List (List Char)}
    {conditions : List Condition} (h : Sentence S ws conditions) :
    ∀ {cs : List Char}, words cs = ws → Layout R cs conditions := by
  induction h with
  | nil =>
    intro cs hcs
    exact .blank (words_eq_nil_iff.1 hcs)
  | cons hs _ ih =>
    intro cs hcs
    obtain ⟨gap, as, tail, rfl, hgap, hr, htail, hrest⟩ := hcuts _ _ hs _ _ hcs
    exact .cons hgap hr htail (ih hrest)

/-- Phrases are the words of spellings. -/
theorem cuts_phrase : Cuts Condition.Spells Phrase := by
  intro ws c h cs rest hcs
  cases h with
  | @word ops as p hops hspells =>
    obtain ⟨gap, tail, rfl, hgap, -, htail, hrest⟩ := words_eq_cons hcs
    refine ⟨gap, ops ++ as, tail, rfl, hgap, ?_, htail, hrest⟩
    cases ops with
    | nil => exact .bare hspells
    | cons d ds => exact .operator hops (List.cons_ne_nil d ds) gap_nil hspells
  | @detached ops as p hops hne hspells =>
    obtain ⟨gap, gap', tail, rfl, hgap, -, hgap', htail, hrest⟩ := words_eq_cons_cons hcs
    refine ⟨gap, ops ++ (gap' ++ as), tail, by simp, hgap, ?_, htail, hrest⟩
    rw [symbol?_of_ne_nil hne]
    exact .operator hops hne hgap' hspells
  | @hyphenRange as bs low high hlow hhigh =>
    obtain ⟨gap, gap₁, tail, rfl, hgap, hne₁, hgap₁, htail, hcs⟩ := words_eq_cons_cons hcs
    obtain ⟨gap₂, tail, rfl, hgap₂, hword, htail', hrest⟩ := words_eq_cons hcs
    refine ⟨gap, as ++ (gap₁ ++ (['-'] ++ (gap₂ ++ bs))), tail, by simp, hgap, ?_, htail', hrest⟩
    exact .hyphenRange hlow hne₁ hgap₁ (ne_nil_of_startsBlank htail hword) hgap₂ hhigh

/-- A segment is read as the conditions that it lays out. -/
theorem Segment.read?_of_layout {cs : List Char} {conditions : List Condition}
    (h : Layout Condition.Spells cs conditions) : read? cs = some (ofConditions conditions) :=
  read?_eq_some_iff.2 ⟨conditions, sentence_of_layout (fun _ _ hc => .inl hc.phrase) h, rfl⟩

/-! ## Alternatives -/

theorem Partial.Spells.not_mem_bar {cs : List Char} {p : Partial} (h : p.Spells cs) : '|' ∉ cs :=
  h.not_mem (by decide) (by decide) (by decide)

theorem Operators.not_mem_bar {ops : List Char} (h : Operators ops) : '|' ∉ ops := fun hmem =>
  absurd (h '|' hmem) (by decide)

theorem ReadPhrase.not_mem_bar {ws : List (List Char)} {c : Condition} (h : ReadPhrase ws c) :
    ∀ w ∈ ws, '|' ∉ w := by
  rcases h with h | h
  · cases h with
    | word hops hspells => simp [hops.not_mem_bar, hspells.not_mem_bar]
    | detached hops _ hspells => simp [hops.not_mem_bar, hspells.not_mem_bar]
    | hyphenRange hlow hhigh => simp [hlow.not_mem_bar, hhigh.not_mem_bar]
  · cases h with
    | split hfront _ hback _ hspells =>
      simp [hfront.not_mem_bar, hback.not_mem_bar, hspells.not_mem_bar]

theorem Segment.not_mem_bar_of_read? {cs : List Char} {s : Segment} (h : read? cs = some s) :
    '|' ∉ cs := by
  obtain ⟨conditions, hsentence, -⟩ := read?_eq_some_iff.1 h
  intro hmem
  obtain ⟨w, hw, hbar⟩ := exists_mem_words (by decide) rfl hmem
  exact hsentence.forall_mem (fun _ _ hphrase => hphrase.not_mem_bar) w hw hbar

theorem Layout.not_mem_bar {cs : List Char} {conditions : List Condition}
    (h : Layout Condition.Spells cs conditions) : '|' ∉ cs :=
  Segment.not_mem_bar_of_read? (Segment.read?_of_layout h)

namespace Outline

theorem alternatives_cons {c : Char} (hc : c ≠ '|') (cs : List Char) :
    alternatives (c :: cs) = (alternatives cs).modifyHead (c :: ·) := by
  rw [alternatives]
  intro rest hbar
  exact absurd hbar hc

theorem alternatives_of_not_mem {cs : List Char} (h : '|' ∉ cs) : alternatives cs = [cs] := by
  induction cs with
  | nil => rfl
  | cons c cs ih =>
    rw [List.mem_cons, not_or] at h
    rw [alternatives_cons (Ne.symm h.1), ih h.2]
    rfl

/-- **Bars end an alternative.** -/
theorem alternatives_append {cs : List Char} (h : '|' ∉ cs) (rest : List Char) :
    alternatives (cs ++ (['|', '|'] ++ rest)) = cs :: alternatives rest := by
  induction cs with
  | nil => rw [List.nil_append, List.cons_append, List.cons_append, List.nil_append, alternatives]
  | cons c cs ih =>
    rw [List.mem_cons, not_or] at h
    rw [List.cons_append, alternatives_cons (Ne.symm h.1), ih h.2]
    rfl

theorem alternatives_intercalate {texts : List (List Char)} (hne : texts ≠ [])
    (h : ∀ cs ∈ texts, '|' ∉ cs) : alternatives (['|', '|'].intercalate texts) = texts := by
  induction texts with
  | nil => exact absurd rfl hne
  | cons cs texts ih =>
    have hcs := h cs List.mem_cons_self
    cases texts with
    | nil =>
      rw [List.intercalate_singleton]
      exact alternatives_of_not_mem hcs
    | cons ds texts =>
      have hrest := ih (List.cons_ne_nil _ _) fun es hes => h es (List.mem_cons_of_mem _ hes)
      rw [List.intercalate_cons_cons, List.append_assoc, alternatives_append hcs, hrest]

theorem alternatives_intercalate_append {texts : List (List Char)} (hne : texts ≠ [])
    (h : ∀ cs ∈ texts, '|' ∉ cs) (rest : List Char) :
    alternatives (['|', '|'].intercalate texts ++ (['|', '|'] ++ rest)) =
      texts ++ alternatives rest := by
  induction texts with
  | nil => exact absurd rfl hne
  | cons cs texts ih =>
    have hcs := h cs List.mem_cons_self
    cases texts with
    | nil => rw [List.intercalate_singleton, alternatives_append hcs, List.singleton_append]
    | cons ds texts =>
      have hrest := ih (List.cons_ne_nil _ _) fun es hes => h es (List.mem_cons_of_mem _ hes)
      rw [List.intercalate_cons_cons, List.append_assoc, List.append_assoc,
        alternatives_append hcs, hrest]
      rfl

theorem alternatives_ne_nil (cs : List Char) : alternatives cs ≠ [] := by
  induction cs using alternatives.induct with
  | case1 => simp [alternatives]
  | case2 cs => simp [alternatives]
  | case3 c cs hbars ih =>
    rw [alternatives]
    · simpa using ih
    · exact hbars

/-- **Bars put the alternatives together again.** -/
theorem intercalate_alternatives (cs : List Char) :
    ['|', '|'].intercalate (alternatives cs) = cs := by
  induction cs using alternatives.induct with
  | case1 => rfl
  | case2 cs ih =>
    obtain ⟨first, others, hfirst⟩ := List.exists_cons_of_ne_nil (alternatives_ne_nil cs)
    rw [alternatives, hfirst, List.intercalate_cons_cons, ← hfirst, ih]
    rfl
  | case3 c cs hbars ih =>
    obtain ⟨first, others, hfirst⟩ := List.exists_cons_of_ne_nil (alternatives_ne_nil cs)
    rw [alternatives, hfirst, List.modifyHead_cons]
    · rw [hfirst] at ih
      cases others with
      | nil =>
        rw [List.intercalate_singleton] at ih ⊢
        rw [ih]
      | cons second others =>
        rw [List.intercalate_cons_cons] at ih ⊢
        rw [List.cons_append, List.cons_append, ih]
    · exact hbars

theorem eq_of_alternatives_eq_singleton {cs ds : List Char} (h : alternatives cs = [ds]) :
    ds = cs := by
  have hcs := intercalate_alternatives cs
  rwa [h, List.intercalate_singleton] at hcs

theorem alternatives_of_not_infix {cs : List Char} (h : ¬ ['|', '|'] <:+: cs) :
    alternatives cs = [cs] := by
  cases halternatives : alternatives cs with
  | nil => exact absurd halternatives (alternatives_ne_nil cs)
  | cons first others =>
    cases others with
    | nil => rw [eq_of_alternatives_eq_singleton halternatives]
    | cons second others =>
      have hcs := intercalate_alternatives cs
      rw [halternatives, List.intercalate_cons_cons] at hcs
      exact absurd ⟨first, _, hcs⟩ h

/-- A text that lays out conditions is read as one segment of them. -/
theorem parse_of_layout {raw : String} {conditions : List Condition}
    (h : Layout Condition.Spells raw.toList conditions) :
    parse raw = .ok ⟨raw, [Segment.ofConditions conditions]⟩ := by
  rw [parse_eq_ok_iff, alternatives_of_not_mem h.not_mem_bar, List.map_singleton,
    Segment.read?_of_layout h]
  exact ⟨rfl, rfl⟩

/-- **A requirement is read as what it was laid out from**: each segment as its conditions, in
their order. -/
theorem parse_of_layouts {texts : List (List Char)} {conditions : List (List Condition)}
    (hne : texts ≠ []) (h : List.Forall₂ (Layout Condition.Spells) texts conditions) :
    parse (String.ofList (['|', '|'].intercalate texts)) =
      .ok ⟨String.ofList (['|', '|'].intercalate texts),
        conditions.map Segment.ofConditions⟩ := by
  have hbars : ∀ cs ∈ texts, '|' ∉ cs := by
    clear hne
    induction h with
    | nil => exact fun cs hcs => absurd hcs List.not_mem_nil
    | cons hlayout _ ih =>
      intro cs hcs
      rcases List.mem_cons.1 hcs with rfl | hcs
      · exact hlayout.not_mem_bar
      · exact ih cs hcs
  refine parse_eq_ok_iff.2 ⟨rfl, ?_⟩
  rw [String.toList_ofList, alternatives_intercalate hne hbars]
  clear hne hbars
  induction h with
  | nil => rfl
  | cons hlayout _ ih =>
    rw [List.map_cons, Segment.read?_of_layout hlayout, ih]
    rfl

theorem parse_of_layouts_two : parse ">= 1.2 ||v1.0.0-a - 2.x" =
    .ok ⟨">= 1.2 ||v1.0.0-a - 2.x",
      [⟨[⟨some ">=", ⟨"1", some "2", none, [], []⟩⟩], []⟩,
        ⟨[], [⟨⟨"1", some "0", some "0", ["a"], []⟩, ⟨"2", some "x", none, [], []⟩⟩]⟩]⟩ := by
  have hcomparison : Condition.Spells (['>', '='] ++ ([' '] ++ ['1', '.', '2']))
      (.comparison ⟨some ">=", ⟨"1", some "2", none, [], []⟩⟩) :=
    .operator (by decide) (by decide) (by decide) (Partial.read?_eq_some_iff.1 (by decide))
  have hrange : Condition.Spells
      (['v', '1', '.', '0', '.', '0', '-', 'a'] ++ ([' '] ++ (['-'] ++ ([' '] ++ ['2', '.', 'x']))))
      (.hyphenRange ⟨⟨"1", some "0", some "0", ["a"], []⟩, ⟨"2", some "x", none, [], []⟩⟩) :=
    .hyphenRange (Partial.read?_eq_some_iff.1 (by decide)) (by decide) (by decide) (by decide)
      (by decide) (Partial.read?_eq_some_iff.1 (by decide))
  have hblank : Layout Condition.Spells [' '] [] := .blank (by decide)
  have hempty : Layout Condition.Spells [] [] := .blank gap_nil
  have hfirst := Layout.cons gap_nil hcomparison (by decide) hblank
  have hsecond := Layout.cons gap_nil hrange (by decide) hempty
  exact parse_of_layouts (List.cons_ne_nil _ _) (.cons hfirst (.cons hsecond .nil))

end Outline

end SemverRange
