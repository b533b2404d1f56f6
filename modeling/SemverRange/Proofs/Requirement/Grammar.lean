import Mathlib.Data.List.Chain
import SemverRange.Proofs.Requirement.Build
import SemverRange.Proofs.Requirement.Layout

/-!
# The grammar of requirements

**Documented conditions** (`Condition.Documented`). The operator of a comparison, if it has one,
is one of the seven comparators, written without a blank in it. A requirement is *grammatical* if
each of its alternatives lays out documented conditions.

**Broken operators** (`Condition.Broken`). A word of operator characters is glued to the next
word whatever that starts with, so `<` or `>` and a word that starts with `=` are read as one
operator. No other text is read that is not grammatical: the symbols that result from gluing two
operators have at least two characters, and only `<=` and `>=` are comparators.

Main result: `Requirement.grammatical_iff_of_build`.
-/

namespace SemverRange

open Text

namespace Condition

/-- The comparison has no symbol, or that of a comparator. -/
def HasComparator : Condition → Prop
  | comparison c => ∃ k, c.comparator? = some k
  | hyphenRange _ => True

/-- A text that writes one condition as the grammar has it. -/
def Documented (cs : List Char) (c : Condition) : Prop := Spells cs c ∧ c.HasComparator

/-- A text that writes a comparison with blanks in its operator. -/
inductive Broken : List Char → Condition → Prop
  | broken {d : Char} {gap cs : List Char} {p : Partial} : d = '<' ∨ d = '>' → gap ≠ [] →
      Gap gap → p.Spells cs →
      Broken ([d] ++ (gap ++ '=' :: cs)) (.comparison ⟨some (String.ofList [d, '=']), p⟩)

end Condition

/-- Each alternative lays out documented conditions. -/
def Grammatical (raw : String) : Prop :=
  ∀ cs ∈ Outline.alternatives raw.toList, ∃ conditions, Layout Condition.Documented cs conditions

/-- The second word continues the operator that the first one is. -/
def Breaks (first second : List Char) : Prop :=
  ∃ d w, (d = '<' ∨ d = '>') ∧ first = [d] ∧ second = '=' :: w

/-- Two words in a row break an operator. -/
def BreaksOperator (cs : List Char) : Prop :=
  ∃ first second, Breaks first second ∧ [first, second] <:+: words cs

/-! ## Broken phrases -/

/-- The words of a condition with a broken operator. -/
inductive BrokenPhrase : List (List Char) → Condition → Prop
  | broken {d : Char} {cs : List Char} {p : Partial} : d = '<' ∨ d = '>' → p.Spells cs →
      BrokenPhrase [[d], '=' :: cs] (.comparison ⟨some (String.ofList [d, '=']), p⟩)

theorem Comparator.symbol_of_ofSymbol? {cs : List Char} {k : Comparator}
    (h : ofSymbol? cs = some k) : k.symbol = cs := by
  simpa using List.find?_some h

theorem Comparator.eq_of_symbol_append {k : Comparator} {front back : List Char}
    (h : k.symbol = front ++ back) (hfront : front ≠ []) (hback : back ≠ []) :
    ∃ d, (d = '<' ∨ d = '>') ∧ front = [d] ∧ back = ['='] := by
  obtain ⟨d, ds, rfl⟩ := List.exists_cons_of_ne_nil hfront
  obtain ⟨e, es, rfl⟩ := List.exists_cons_of_ne_nil hback
  cases ds with
  | cons d' ds => cases k <;> simp [symbol] at h
  | nil =>
    cases k with
    | eq | gt | lt | tilde | caret => simp [symbol] at h
    | ge | le =>
      simp only [symbol, List.cons_append, List.nil_append, List.cons.injEq] at h
      obtain ⟨rfl, rfl, hes⟩ := h
      exact ⟨_, by simp, rfl, by rw [hes]⟩

/-- An operator that is cut in two is broken. -/
theorem SplitPhrase.broken {ws : List (List Char)} {c : Condition} (h : SplitPhrase ws c)
    (hc : c.HasComparator) : BrokenPhrase ws c := by
  cases h with
  | @split front back cs p hfront hfne hback hbne hspells =>
    have hsymbol : symbol? (front ++ back) = some (String.ofList (front ++ back)) :=
      symbol?_of_ne_nil (by simp [hfne])
    rw [hsymbol] at hc ⊢
    obtain ⟨k, hk⟩ := hc
    have hread := Comparator.symbol_of_ofSymbol? hk
    rw [String.toList_ofList] at hread
    obtain ⟨d, hd, rfl, rfl⟩ := Comparator.eq_of_symbol_append hread hfne hbne
    exact .broken hd hspells

theorem cuts_brokenPhrase : Cuts Condition.Broken BrokenPhrase := by
  intro ws c h cs rest hcs
  cases h with
  | @broken d as p hd hspells =>
    obtain ⟨gap, gap', tail, rfl, hgap, hne, hgap', htail, hrest⟩ := words_eq_cons_cons hcs
    refine ⟨gap, [d] ++ (gap' ++ '=' :: as), tail, by simp, hgap, ?_, htail, hrest⟩
    exact .broken hd hne hgap' hspells

/-! ## Documented phrases -/

theorem Partial.Spells.not_breaks_append {cs : List Char} {p : Partial} (h : p.Spells cs)
    (ops next : List Char) : ¬ Breaks (ops ++ cs) next := by
  rintro ⟨d, w, hd, hfirst, -⟩
  refine h.not_operators_append ops ?_
  rw [hfirst]
  rcases hd with rfl | rfl
  · decide
  · decide

theorem Partial.Spells.not_breaks {cs : List Char} {p : Partial} (h : p.Spells cs)
    (next : List Char) : ¬ Breaks cs next :=
  h.not_breaks_append [] next

theorem Partial.Spells.not_breaks_right {cs : List Char} {p : Partial} (h : p.Spells cs)
    (first : List Char) : ¬ Breaks first cs := by
  rintro ⟨d, w, -, -, rfl⟩
  exact absurd (h.not_operator '=' List.mem_cons_self) (by decide)

/-- The words of a phrase break no operator, and the last one no operator with what follows. -/
theorem Phrase.isChain {ws : List (List Char)} {c : Condition} (h : Phrase ws c) :
    ws.IsChain (¬ Breaks · ·) ∧ ∀ last ∈ ws.getLast?, ∀ next, ¬ Breaks last next := by
  cases h with
  | @word ops cs p _ hspells => simpa using hspells.not_breaks_append ops
  | @detached ops cs p _ _ hspells =>
    simpa using And.intro (hspells.not_breaks_right ops) hspells.not_breaks
  | @hyphenRange as bs low high hlow hhigh =>
    simpa using And.intro ⟨hlow.not_breaks ['-'], hhigh.not_breaks_right ['-']⟩ hhigh.not_breaks

theorem Sentence.isChain {ws : List (List Char)} {conditions : List Condition}
    (h : Sentence Phrase ws conditions) : ws.IsChain (¬ Breaks · ·) := by
  induction h with
  | nil => exact .nil
  | cons hphrase _ ih =>
    obtain ⟨hchain, hlast⟩ := hphrase.isChain
    exact List.isChain_append.2 ⟨hchain, ih, fun last hl next _ => hlast last hl next⟩

/-- A layout of documented conditions breaks no operator. -/
theorem not_breaksOperator_of_layout {cs : List Char} {conditions : List Condition}
    (h : Layout Condition.Documented cs conditions) : ¬ BreaksOperator cs := by
  rintro ⟨first, second, hbreaks, hpart⟩
  have hsentence : Sentence Phrase (words cs) conditions :=
    sentence_of_layout (fun _ _ hc => hc.1.phrase) h
  have hpair := hsentence.isChain.infix hpart
  exact (List.isChain_pair.1 hpair) hbreaks

/-! ## From the words to the grammar -/

theorem Sentence.of_or {S T : List (List Char) → Condition → Prop} {ws : List (List Char)}
    {conditions : List Condition} (h : Sentence (fun ws c => S ws c ∨ T ws c) ws conditions)
    (hT : ∀ phrase c, T phrase c → ¬ phrase <:+: ws) : Sentence S ws conditions := by
  induction h with
  | nil => exact .nil
  | @cons phrase rest c cs hphrase _ ih =>
    have hrest := ih fun other d hd hpart =>
      hT other d hd (hpart.trans (List.suffix_append phrase rest).isInfix)
    rcases hphrase with hphrase | hphrase
    · exact .cons hphrase hrest
    · exact absurd (List.prefix_append phrase rest).isInfix (hT phrase c hphrase)

/-- The phrases of known symbols are documented or broken. -/
theorem Sentence.documented_or_broken {ws : List (List Char)} {conditions : List Condition}
    (h : Sentence ReadPhrase ws conditions) (hc : ∀ c ∈ conditions, c.HasComparator) :
    Sentence (fun ws c => (Phrase ws c ∧ c.HasComparator) ∨ BrokenPhrase ws c) ws conditions := by
  induction h with
  | nil => exact .nil
  | cons hphrase _ ih =>
    have hhead := hc _ List.mem_cons_self
    have hrest := ih fun c hmem => hc c (List.mem_cons_of_mem _ hmem)
    rcases hphrase with hphrase | hphrase
    · exact .cons (.inl ⟨hphrase, hhead⟩) hrest
    · exact .cons (.inr (hphrase.broken hhead)) hrest

theorem Cuts.or {R R' : List Char → Condition → Prop} {S S' : List (List Char) → Condition → Prop}
    (h : Cuts R S) (h' : Cuts R' S') :
    Cuts (fun cs c => R cs c ∨ R' cs c) (fun ws c => S ws c ∨ S' ws c) := by
  rintro ws c (hs | hs) cs rest hcs
  · obtain ⟨gap, as, tail, heq, hgap, hr, htail⟩ := h _ _ hs _ _ hcs
    exact ⟨gap, as, tail, heq, hgap, .inl hr, htail⟩
  · obtain ⟨gap, as, tail, heq, hgap, hr, htail⟩ := h' _ _ hs _ _ hcs
    exact ⟨gap, as, tail, heq, hgap, .inr hr, htail⟩

theorem cuts_documented :
    Cuts Condition.Documented (fun ws c => Phrase ws c ∧ c.HasComparator) := by
  rintro ws c ⟨hphrase, hc⟩ cs rest hcs
  obtain ⟨gap, as, tail, heq, hgap, hr, htail⟩ := cuts_phrase _ _ hphrase _ _ hcs
  exact ⟨gap, as, tail, heq, hgap, ⟨hr, hc⟩, htail⟩

theorem Segment.Sound.hasComparator {conditions : List Condition}
    (h : (ofConditions conditions).Sound) : ∀ c ∈ conditions, c.HasComparator := by
  intro c hc
  cases c with
  | comparison c =>
    have hmem : c ∈ (ofConditions conditions).comparisons :=
      List.mem_filterMap.2 ⟨_, hc, rfl⟩
    exact (h.comparison c hmem).2
  | hyphenRange r => trivial

/-! ## Requirements -/

namespace Requirement

/-- **A requirement that can be built is grammatical unless it breaks an operator.** -/
theorem grammatical_iff_of_build {raw : String} {flag : Bool} {r : Requirement}
    (h : build raw flag = .ok r) :
    (∀ cs ∈ Outline.alternatives raw.toList, ∃ conditions,
      Layout (fun as c => Condition.Documented as c ∨ Condition.Broken as c) cs conditions) ∧
    (Grammatical raw ↔ ∀ cs ∈ Outline.alternatives raw.toList, ¬ BreaksOperator cs) := by
  obtain ⟨o, ho, hsound, -⟩ := exists_outline_of_build h
  obtain ⟨-, hsegments⟩ := Outline.parse_eq_ok_iff.1 ho
  have hsentence : ∀ cs ∈ Outline.alternatives raw.toList, ∃ conditions,
      Sentence (fun ws c => (Phrase ws c ∧ c.HasComparator) ∨ BrokenPhrase ws c) (words cs)
        conditions := by
    intro cs hcs
    obtain ⟨s, hs, hread⟩ := exists_mem_of_map_eq_map hsegments hcs
    obtain ⟨conditions, hconditions, rfl⟩ := Segment.read?_eq_some_iff.1 hread.symm
    exact ⟨conditions, hconditions.documented_or_broken (hsound _ hs).hasComparator⟩
  refine ⟨fun cs hcs => ?_, ?_⟩
  · obtain ⟨conditions, hconditions⟩ := hsentence cs hcs
    exact ⟨conditions, layout_of_sentence (cuts_documented.or cuts_brokenPhrase) hconditions rfl⟩
  · constructor
    · intro hgrammatical cs hcs
      obtain ⟨conditions, hlayout⟩ := hgrammatical cs hcs
      exact not_breaksOperator_of_layout hlayout
    · intro hunbroken cs hcs
      obtain ⟨conditions, hconditions⟩ := hsentence cs hcs
      refine ⟨conditions, layout_of_sentence cuts_documented (hconditions.of_or ?_) rfl⟩
      intro phrase c hphrase hpart
      cases hphrase with
      | @broken d as p hd hspells =>
        exact hunbroken cs hcs ⟨[d], '=' :: as, ⟨d, as, hd, rfl, rfl⟩, hpart⟩

theorem not_grammatical_of_detached : ∃ r, build "> =1.2.3" false = .ok r ∧
    ((∀ cs ∈ Outline.alternatives "> =1.2.3".toList, ∃ conditions,
      Layout (fun as c => Condition.Documented as c ∨ Condition.Broken as c) cs conditions) ∧
      (Grammatical "> =1.2.3" ↔
        ∀ cs ∈ Outline.alternatives "> =1.2.3".toList, ¬ BreaksOperator cs)) ∧
    ¬ Grammatical "> =1.2.3" := by
  obtain ⟨r, hr, -⟩ : ∃ r, build "> =1.2.3" false = .ok r ∧
      r.accepts ⟨⟨1, 2, 3⟩, [], []⟩ = true := exists_build_of_accepts (by decide +kernel)
  have hgrammar := grammatical_iff_of_build hr
  have hbreaks : BreaksOperator "> =1.2.3".toList :=
    ⟨['>'], ['=', '1', '.', '2', '.', '3'], ⟨'>', _, .inr rfl, rfl, rfl⟩, by decide⟩
  refine ⟨r, hr, hgrammar, fun hgrammatical => ?_⟩
  exact hgrammar.2.1 hgrammatical _ (by decide) hbreaks

end Requirement

end SemverRange
