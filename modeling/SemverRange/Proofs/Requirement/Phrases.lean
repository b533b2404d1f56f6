import SemverRange.Proofs.Partial.Notation
import SemverRange.Requirement.Basic

/-!
# The words of a segment

**Conditions.** A segment is a list of conditions, comparisons and hyphen ranges, of which the
outline keeps each kind in its order (`Segment.ofConditions`).

**Phrases.** The words of a segment fall into phrases, one for each condition (`Sentence`): one
word with an operator in front or none, an operator and a bare partial version, or two partial
versions with a hyphen between them (`Phrase`). One more kind is read that the others do not
explain: an operator of which the second half starts the next word (`SplitPhrase`).

**Gluing.** Glued words fall into the phrases without a detached operator, and a word that does
not start with an operator was not glued.

Main result: `Segment.read?_eq_some_iff`.
-/

namespace SemverRange

/-- A comparison or a hyphen range. -/
inductive Condition where
  | comparison (c : Comparison)
  | hyphenRange (r : HyphenRange)
  deriving DecidableEq

namespace Condition

/-- The comparison, if the condition is one. -/
def comparison? : Condition → Option Comparison
  | comparison c => some c
  | hyphenRange _ => none

/-- The hyphen range, if the condition is one. -/
def hyphenRange? : Condition → Option HyphenRange
  | comparison _ => none
  | hyphenRange r => some r

end Condition

/-- The segment of a list of conditions. -/
def Segment.ofConditions (cs : List Condition) : Segment :=
  ⟨cs.filterMap Condition.comparison?, cs.filterMap Condition.hyphenRange?⟩

/-! ## Phrases -/

/-- Operator characters alone. -/
def Operators (ops : List Char) : Prop := ∀ c ∈ ops, isOperatorChar c = true

instance (ops : List Char) : Decidable (Operators ops) :=
  decidable_of_iff (ops.all isOperatorChar = true) List.all_eq_true

/-- The symbol that operator characters write, if there are any. -/
def symbol? (ops : List Char) : Option String :=
  if ops.isEmpty then none else some (String.ofList ops)

/-- The comparator of a comparison; without a symbol it asks for equality. -/
def Comparison.comparator? (c : Comparison) : Option Comparator :=
  match c.symbol with
  | none => some .eq
  | some s => Comparator.ofSymbol? s.toList

/-- The words that write one condition. -/
inductive Phrase : List (List Char) → Condition → Prop
  | word {ops cs : List Char} {p : Partial} : Operators ops → p.Spells cs →
      Phrase [ops ++ cs] (.comparison ⟨symbol? ops, p⟩)
  | detached {ops cs : List Char} {p : Partial} : Operators ops → ops ≠ [] → p.Spells cs →
      Phrase [ops, cs] (.comparison ⟨symbol? ops, p⟩)
  | hyphenRange {as bs : List Char} {low high : Partial} : low.Spells as → high.Spells bs →
      Phrase [as, ['-'], bs] (.hyphenRange ⟨low, high⟩)

/-- The words of a condition whose operator is cut in two by a blank. -/
inductive SplitPhrase : List (List Char) → Condition → Prop
  | split {front back cs : List Char} {p : Partial} : Operators front → front ≠ [] →
      Operators back → back ≠ [] → p.Spells cs →
      SplitPhrase [front, back ++ cs] (.comparison ⟨symbol? (front ++ back), p⟩)

/-- The words that are read as one condition. -/
def ReadPhrase (ws : List (List Char)) (c : Condition) : Prop := Phrase ws c ∨ SplitPhrase ws c

/-- The words fall into phrases that write the conditions, one after the other. -/
inductive Sentence (R : List (List Char) → Condition → Prop) :
    List (List Char) → List Condition → Prop
  | nil : Sentence R [] []
  | cons {ws rest : List (List Char)} {c : Condition} {cs : List Condition} : R ws c →
      Sentence R rest cs → Sentence R (ws ++ rest) (c :: cs)

theorem Sentence.forall_mem {R : List (List Char) → Condition → Prop} {P : List Char → Prop}
    (hR : ∀ ws c, R ws c → ∀ w ∈ ws, P w) {ws : List (List Char)} {cs : List Condition}
    (h : Sentence R ws cs) : ∀ w ∈ ws, P w := by
  induction h with
  | nil => exact fun w hw => absurd hw List.not_mem_nil
  | cons hphrase _ ih =>
    intro w hw
    rcases List.mem_append.1 hw with hw | hw
    · exact hR _ _ hphrase w hw
    · exact ih w hw

/-- A change of the words and the conditions that keeps phrases keeps sentences. -/
theorem Sentence.map {R R' : List (List Char) → Condition → Prop} {f : List Char → List Char}
    {g : Condition → Condition} (hR : ∀ ws c, R ws c → R' (ws.map f) (g c))
    {ws : List (List Char)} {cs : List Condition} (h : Sentence R ws cs) :
    Sentence R' (ws.map f) (cs.map g) := by
  induction h with
  | nil => exact .nil
  | cons hphrase _ ih =>
    rw [List.map_append, List.map_cons]
    exact .cons (hR _ _ hphrase) ih

/-! ## Operators in front of a partial version -/

theorem Operators.append {front back : List Char} (hfront : Operators front)
    (hback : Operators back) : Operators (front ++ back) := by
  intro c hc
  rcases List.mem_append.1 hc with hc | hc
  · exact hfront c hc
  · exact hback c hc

theorem operators_iff_all {ops : List Char} :
    ops.all isOperatorChar = true ↔ Operators ops := List.all_eq_true

theorem forall_isOperatorChar {p : Char → Bool}
    (h : ['<', '>', '=', '~', '^', '!'].all p = true) {c : Char} (hc : isOperatorChar c = true) :
    p c = true :=
  List.all_eq_true.1 h c (List.elem_iff.1 hc)

theorem isBlank_of_isOperatorChar {c : Char} (h : isOperatorChar c = true) :
    Text.isBlank c = false := by
  have := forall_isOperatorChar (p := (!Text.isBlank ·)) (by decide) h
  simpa using this

theorem Partial.Spells.not_operator {cs : List Char} {p : Partial} (h : p.Spells cs) :
    ∀ c ∈ cs, isOperatorChar c = false := by
  intro c hc
  rw [← Bool.not_eq_true]
  intro hop
  have hdigit := forall_isOperatorChar (p := (!Text.isDigit ·)) (by decide) hop
  have hid := forall_isOperatorChar (p := (!Written.isIdentifierChar ·)) (by decide) hop
  have hmark := forall_isOperatorChar (p := (!List.contains ['*', '.', '+'] ·)) (by decide) hop
  exact h.not_mem (by simpa using hdigit) (by simpa using hid) (by simpa using hmark) hc

theorem Partial.Spells.not_operators_append {cs : List Char} {p : Partial} (h : p.Spells cs)
    (ops : List Char) : ¬ Operators (ops ++ cs) := by
  intro hops
  obtain ⟨c, ds, rfl⟩ := List.exists_cons_of_ne_nil h.ne_nil
  have hc := hops c (by simp)
  rw [h.not_operator c List.mem_cons_self] at hc
  exact absurd hc (by decide)

theorem Partial.Spells.not_operators {cs : List Char} {p : Partial} (h : p.Spells cs) :
    ¬ Operators cs :=
  h.not_operators_append []

theorem Partial.Spells.ne_hyphen {cs : List Char} {p : Partial} (h : p.Spells cs) :
    cs ≠ ['-'] := by
  rintro rfl
  have hread := Partial.read?_eq_some_iff.2 h
  have hnone : Partial.read? ['-'] = none := by decide
  rw [hnone] at hread
  exact absurd hread (by simp)

/-- Operators that start a word are the first of those in front of its partial version. -/
theorem Partial.Spells.exists_operators {front next ops cs : List Char} {p : Partial}
    (h : p.Spells cs) (hfront : Operators front) (heq : front ++ next = ops ++ cs) :
    ∃ back, ops = front ++ back ∧ next = back ++ cs := by
  rcases List.append_eq_append_iff.1 heq with ⟨back, hops, hnext⟩ | ⟨rest, hrest, hcs⟩
  · exact ⟨back, hops, hnext⟩
  · cases rest with
    | nil => exact ⟨[], by simpa using hrest.symm, by simpa using hcs.symm⟩
    | cons c ds =>
      have hc := hfront c (by simp [hrest])
      rw [h.not_operator c (by simp [hcs])] at hc
      exact absurd hc (by decide)

/-- **A word is read as the comparison of its operator and its partial version.** -/
theorem Comparison.read?_eq_some_iff {w : List Char} {c : Comparison} :
    Comparison.read? w = some c ↔ ∃ ops cs, w = ops ++ cs ∧ Operators ops ∧ c.version.Spells cs ∧
      c.symbol = symbol? ops := by
  constructor
  · intro h
    obtain ⟨p, hp, rfl⟩ := Option.map_eq_some_iff.1 h
    refine ⟨w.takeWhile isOperatorChar, w.dropWhile isOperatorChar, ?_, ?_, ?_, rfl⟩
    · exact List.takeWhile_append_dropWhile.symm
    · exact operators_iff_all.1 List.all_takeWhile
    · exact Partial.read?_eq_some_iff.1 hp
  · rintro ⟨ops, cs, rfl, hops, hspells, hsymbol⟩
    have hcs := hspells.not_operator
    obtain ⟨d, ds, rfl⟩ := List.exists_cons_of_ne_nil hspells.ne_nil
    have hd := hcs d List.mem_cons_self
    have htake : (ops ++ d :: ds).takeWhile isOperatorChar = ops := by
      rw [List.takeWhile_append_of_pos hops, List.takeWhile_cons_of_neg (by simp [hd]),
        List.append_nil]
    have hdrop : (ops ++ d :: ds).dropWhile isOperatorChar = d :: ds := by
      rw [List.dropWhile_append_of_pos hops, List.dropWhile_cons_of_neg (by simp [hd])]
    obtain ⟨symbol, version⟩ := c
    obtain rfl : symbol = symbol? ops := hsymbol
    rw [Comparison.read?, htake, hdrop, Partial.read?_eq_some_iff.2 hspells]
    rfl

/-! ## Glued words -/

/-- The glued words that write one condition. -/
inductive GluedPhrase : List (List Char) → Condition → Prop
  | word {w : List Char} {c : Comparison} : Comparison.read? w = some c →
      GluedPhrase [w] (.comparison c)
  | hyphenRange {as bs : List Char} {low high : Partial} : low.Spells as → high.Spells bs →
      GluedPhrase [as, ['-'], bs] (.hyphenRange ⟨low, high⟩)

namespace Segment

theorem ofConditions_hyphenRange (r : HyphenRange) (cs : List Condition) :
    ofConditions (.hyphenRange r :: cs) = consHyphenRange r (ofConditions cs) := rfl

theorem not_sentence_hyphen {ws : List (List Char)} {cs : List Condition} :
    ¬ Sentence GluedPhrase (['-'] :: ws) cs := by
  generalize hws : ['-'] :: ws = all
  intro h
  cases h with
  | nil => exact absurd hws (by simp)
  | cons hphrase _ =>
    cases hphrase with
    | word hread =>
      obtain ⟨rfl, -⟩ := List.cons.inj hws
      have hnone : Comparison.read? ['-'] = none := by decide
      rw [hnone] at hread
      exact absurd hread (by simp)
    | hyphenRange hlow _ => exact hlow.ne_hyphen (List.cons.inj hws).1.symm

theorem ofWords?_word {w : List Char} {ws : List (List Char)} {c : Comparison} {s : Segment}
    (hhyphen : ∀ rest, ws ≠ ['-'] :: rest) (hw : Comparison.read? w = some c)
    (hs : ofWords? ws = some s) : ofWords? (w :: ws) = some (consComparison c s) := by
  rw [ofWords?]
  · simp [hw, hs]
  · rintro high rest rfl
    exact hhyphen _ rfl

theorem sentence_of_ofWords? {ws : List (List Char)} {s : Segment} (h : ofWords? ws = some s) :
    ∃ cs, Sentence GluedPhrase ws cs ∧ s = ofConditions cs := by
  induction ws using ofWords?.induct generalizing s with
  | case1 => exact ⟨[], .nil, (Option.some.inj h).symm⟩
  | case2 low high rest ih =>
    simp only [ofWords?, Option.bind_eq_bind, Option.bind_eq_some_iff, Option.pure_def,
      Option.some.injEq] at h
    obtain ⟨p, hp, q, hq, t, ht, rfl⟩ := h
    obtain ⟨cs, hcs, rfl⟩ := ih ht
    refine ⟨.hyphenRange ⟨p, q⟩ :: cs, ?_, rfl⟩
    exact .cons (.hyphenRange (Partial.read?_eq_some_iff.1 hp) (Partial.read?_eq_some_iff.1 hq))
      hcs
  | case3 word rest hhyphen ih =>
    rw [ofWords?] at h
    · simp only [Option.bind_eq_bind, Option.bind_eq_some_iff, Option.pure_def,
        Option.some.injEq] at h
      obtain ⟨c, hc, t, ht, rfl⟩ := h
      obtain ⟨cs, hcs, rfl⟩ := ih ht
      exact ⟨.comparison c :: cs, .cons (.word hc) hcs, rfl⟩
    · exact hhyphen

/-- Glued words are read by their phrases. -/
theorem ofWords?_eq_some_iff {ws : List (List Char)} {s : Segment} :
    ofWords? ws = some s ↔ ∃ cs, Sentence GluedPhrase ws cs ∧ s = ofConditions cs := by
  constructor
  · exact sentence_of_ofWords?
  · rintro ⟨cs, hcs, rfl⟩
    induction hcs with
    | nil => rfl
    | cons hphrase hrest ih =>
      cases hphrase with
      | word hread =>
        refine ofWords?_word ?_ hread ih
        rintro ws rfl
        exact not_sentence_hyphen hrest
      | hyphenRange hlow hhigh =>
        rw [ofConditions_hyphenRange, List.cons_append, List.cons_append, List.cons_append,
          List.nil_append, ofWords?, Partial.read?_eq_some_iff.2 hlow,
          Partial.read?_eq_some_iff.2 hhigh, ih]
        rfl

/-! ## Gluing -/

theorem glue_word {w : List Char} {ws gs : List (List Char)} (hw : ¬ Operators w)
    (h : glue ws = some gs) : glue (w :: ws) = some (w :: gs) := by
  have hall : w.all isOperatorChar = false := by
    rw [← Bool.not_eq_true, operators_iff_all]
    exact hw
  cases ws with
  | nil =>
    obtain rfl := Option.some.inj h
    simp [glue, hall]
  | cons next rest => simp [glue, hall, h]

theorem glue_operators {w next : List Char} {rest gs : List (List Char)} (hw : Operators w)
    (hnext : ¬ Operators next) (h : glue rest = some gs) :
    glue (w :: next :: rest) = some ((w ++ next) :: gs) := by
  have hall : w.all isOperatorChar = true := operators_iff_all.2 hw
  have hall' : next.all isOperatorChar = false := by
    rw [← Bool.not_eq_true, operators_iff_all]
    exact hnext
  simp [glue, hall, hall', h]

/-- The first glued word is a word, or two words of which the first is an operator. -/
theorem glue_eq_some_cons {ws gs : List (List Char)} {g : List Char}
    (h : glue ws = some (g :: gs)) :
    (∃ rest, ws = g :: rest ∧ glue rest = some gs) ∨
      ∃ w next rest, ws = w :: next :: rest ∧ g = w ++ next ∧ Operators w ∧
        ¬ Operators next ∧ glue rest = some gs := by
  match ws with
  | [] => simp [glue] at h
  | [w] =>
    simp only [glue, Option.ite_none_left_eq_some, Option.some.injEq, List.cons.injEq] at h
    obtain ⟨-, rfl, rfl⟩ := h
    exact .inl ⟨[], rfl, rfl⟩
  | w :: next :: rest =>
    unfold glue at h
    split at h
    · rename_i hw
      split at h
      · exact absurd h (by simp)
      · rename_i hnext
        obtain ⟨gs', hgs, heq⟩ := Option.map_eq_some_iff.1 h
        obtain ⟨rfl, rfl⟩ := List.cons.inj heq
        exact .inr ⟨w, next, rest, rfl, rfl, operators_iff_all.1 hw,
          fun hall => hnext (operators_iff_all.2 hall), hgs⟩
    · obtain ⟨gs', hgs, heq⟩ := Option.map_eq_some_iff.1 h
      obtain ⟨rfl, rfl⟩ := List.cons.inj heq
      exact .inl ⟨next :: rest, rfl, hgs⟩

theorem glue_eq_some_nil {ws : List (List Char)} (h : glue ws = some []) : ws = [] := by
  match ws with
  | [] => rfl
  | [w] => simp [glue] at h
  | w :: next :: rest =>
    unfold glue at h
    split at h
    · split at h
      · exact absurd h (by simp)
      · simp at h
    · simp at h

theorem glue_eq_some_cons_of_not_operator {ws gs : List (List Char)} {g : List Char}
    (hne : ∀ w ∈ ws, w ≠ []) (hg : ∀ c ∈ g, isOperatorChar c = false)
    (h : glue ws = some (g :: gs)) : ∃ rest, ws = g :: rest ∧ glue rest = some gs := by
  rcases glue_eq_some_cons h with hword | ⟨w, next, rest, rfl, rfl, hw, -, -⟩
  · exact hword
  · obtain ⟨c, ds, rfl⟩ := List.exists_cons_of_ne_nil (hne w List.mem_cons_self)
    have hc := hg c (by simp)
    rw [hw c List.mem_cons_self] at hc
    exact absurd hc (by decide)

/-- Words that are glued and then read are phrases. -/
theorem sentence_of_glue {gs : List (List Char)} {cs : List Condition}
    (hs : Sentence GluedPhrase gs cs) : ∀ {ws : List (List Char)}, (∀ w ∈ ws, w ≠ []) →
      glue ws = some gs → Sentence ReadPhrase ws cs := by
  -- on the phrases and not on the words: a hyphen range takes three glued words at once
  induction hs with
  | nil =>
    intro ws _ h
    rw [glue_eq_some_nil h]
    exact .nil
  | cons hphrase _ ih =>
    intro ws hne h
    cases hphrase with
    | word hread =>
      obtain ⟨ops, as, hw, hops, hspells, hsymbol⟩ := Comparison.read?_eq_some_iff.1 hread
      rename_i c
      obtain ⟨symbol, p⟩ := c
      obtain rfl : symbol = symbol? ops := hsymbol
      rcases glue_eq_some_cons h with ⟨rest, rfl, hrest⟩ |
        ⟨front, next, rest, rfl, rfl, hfront, -, hrest⟩
      · have hsentence := ih (fun v hv => hne v (List.mem_cons_of_mem _ hv)) hrest
        rw [hw]
        exact .cons (.inl (.word hops hspells)) hsentence
      · have hsentence := ih (fun v hv => hne v (by simp [hv])) hrest
        have hfne := hne front List.mem_cons_self
        obtain ⟨back, rfl, rfl⟩ := hspells.exists_operators hfront hw
        cases back with
        | nil =>
          rw [List.append_nil]
          exact .cons (.inl (.detached hfront hfne hspells)) hsentence
        | cons c ds =>
          have hback : Operators (c :: ds) := fun d hd => hops d (List.mem_append_right _ hd)
          exact .cons (.inr (.split hfront hfne hback (List.cons_ne_nil _ _) hspells)) hsentence
    | hyphenRange hlow hhigh =>
      have hmiddle : ∀ c ∈ ['-'], isOperatorChar c = false :=
        List.forall_mem_singleton.2 (by decide)
      obtain ⟨rest₁, rfl, h₁⟩ := glue_eq_some_cons_of_not_operator hne hlow.not_operator h
      obtain ⟨rest₂, rfl, h₂⟩ := glue_eq_some_cons_of_not_operator
        (fun v hv => hne v (by simp [hv])) hmiddle h₁
      obtain ⟨rest₃, rfl, h₃⟩ := glue_eq_some_cons_of_not_operator
        (fun v hv => hne v (by simp [hv])) hhigh.not_operator h₂
      exact .cons (.inl (.hyphenRange hlow hhigh)) (ih (fun v hv => hne v (by simp [hv])) h₃)

/-- Phrases are glued to words that are read as their conditions. -/
theorem exists_glue {ws : List (List Char)} {cs : List Condition} (hs : Sentence ReadPhrase ws cs) :
    ∃ gs, glue ws = some gs ∧ Sentence GluedPhrase gs cs := by
  induction hs with
  | nil => exact ⟨[], rfl, .nil⟩
  | cons hphrase _ ih =>
    obtain ⟨gs, hglue, hgs⟩ := ih
    rcases hphrase with hphrase | hphrase
    · cases hphrase with
      | word hops hspells =>
        refine ⟨_, glue_word (hspells.not_operators_append _) hglue, .cons (.word ?_) hgs⟩
        exact Comparison.read?_eq_some_iff.2 ⟨_, _, rfl, hops, hspells, rfl⟩
      | detached hops hne hspells =>
        refine ⟨_, glue_operators hops hspells.not_operators hglue, .cons (.word ?_) hgs⟩
        exact Comparison.read?_eq_some_iff.2 ⟨_, _, rfl, hops, hspells, rfl⟩
      | hyphenRange hlow hhigh =>
        have hmiddle : ¬ Operators ['-'] := by
          rw [← operators_iff_all]
          decide
        refine ⟨_, glue_word hlow.not_operators ?_, .cons (.hyphenRange hlow hhigh) hgs⟩
        exact glue_word hmiddle (glue_word hhigh.not_operators hglue)
    · cases hphrase with
      | split hfront hfne hback hbne hspells =>
        refine ⟨_, glue_operators hfront (hspells.not_operators_append _) hglue,
          .cons (.word ?_) hgs⟩
        exact Comparison.read?_eq_some_iff.2
          ⟨_, _, (List.append_assoc _ _ _).symm, hfront.append hback, hspells, rfl⟩

/-- **A segment is read from the phrases of its words.** -/
theorem read?_eq_some_iff {cs : List Char} {s : Segment} :
    read? cs = some s ↔
      ∃ conditions, Sentence ReadPhrase (Text.words cs) conditions ∧
        s = ofConditions conditions := by
  constructor
  · intro h
    obtain ⟨gs, hglue, hgs⟩ := Option.bind_eq_some_iff.1 h
    obtain ⟨conditions, hsentence, rfl⟩ := ofWords?_eq_some_iff.1 hgs
    exact ⟨conditions, sentence_of_glue hsentence (fun _ => Text.ne_nil_of_mem_words) hglue, rfl⟩
  · rintro ⟨conditions, hsentence, rfl⟩
    obtain ⟨gs, hglue, hgs⟩ := exists_glue hsentence
    rw [read?, hglue, Option.bind_some]
    exact ofWords?_eq_some_iff.2 ⟨conditions, hgs, rfl⟩

end Segment

/-! ## Outlines -/

theorem mapM_eq_some_iff {α β : Type} {f : α → Option β} {xs : List α} {ys : List β} :
    xs.mapM f = some ys ↔ xs.map f = ys.map some := by
  induction xs generalizing ys with
  | nil => cases ys <;> simp
  | cons x xs ih =>
    rw [List.mapM_cons]
    constructor
    · intro h
      obtain ⟨y, hy, h⟩ := Option.bind_eq_some_iff.1 h
      obtain ⟨zs, hzs, h⟩ := Option.bind_eq_some_iff.1 h
      obtain rfl : y :: zs = ys := Option.some.inj h
      rw [List.map_cons, List.map_cons, hy, ih.1 hzs]
    · intro h
      cases ys with
      | nil => simp at h
      | cons y ys =>
        obtain ⟨hy, hys⟩ := List.cons.inj h
        rw [hy, ih.2 hys]
        rfl

theorem exists_mem_of_map_eq_map {α β γ : Type} {f : α → γ} {g : β → γ} {xs : List α}
    {ys : List β} (h : xs.map f = ys.map g) {x : α} (hx : x ∈ xs) : ∃ y ∈ ys, g y = f x := by
  have hmem : f x ∈ ys.map g := h ▸ List.mem_map_of_mem hx
  exact List.mem_map.1 hmem

/-- An outline has one segment for each alternative. -/
theorem Outline.parse_eq_ok_iff {raw : String} {o : Outline} : Outline.parse raw = .ok o ↔
    o.raw = raw ∧ (alternatives raw.toList).map Segment.read? = o.segments.map some := by
  obtain ⟨text, segments⟩ := o
  rw [← mapM_eq_some_iff, parse]
  cases (alternatives raw.toList).mapM Segment.read? with
  | none => simp
  | some found => simp [eq_comm]

end SemverRange
