import SemverRange.Proofs.Requirement.Grammar
import SemverRange.Proofs.Version.Candidate

/-!
# Candidates as requirements

A candidate and a requirement are read by different means: the one has its decoration taken off
from the outside in, the other is split into words, of which operators are glued to the next. On
one version they agree.

**Decoration.** Blanks, one `=` and one `v` around a version are what a requirement has around the
version of a single comparison for equality (`spellable_and_undecorated_iff`). A second `=` glues
to a symbol that is no comparator, and a second `v` spells nothing.

**Pinned requirements** (`Requirement.Pins`). A requirement that is one comparison for equality
with an exact version has the interval of that version alone, and no other clause has such an
interval (`Requirement.exists_pins_iff`).

Main result: `Requirement.parse_eq_ok_iff_pins`.
-/

namespace SemverRange

open Text

/-! ## Comparisons for equality -/

theorem Comparison.comparator?_eq_some_eq_iff {c : Comparison} :
    c.comparator? = some .eq ↔ c.symbol = none ∨ c.symbol = some "=" := by
  obtain ⟨symbol, p⟩ := c
  cases symbol with
  | none => simp [comparator?]
  | some s =>
    constructor
    · intro h
      have hsymbol : ['='] = s.toList := Comparator.symbol_of_ofSymbol? h
      exact .inr (congrArg some (String.toList_inj.1 hsymbol.symm))
    · intro h
      obtain rfl : s = "=" := by simpa using h
      rfl

/-- A text asks for equality with the version that it spells, with or without `=` in front. -/
theorem exists_spells_equality_iff {p : Partial} {cs : List Char} :
    (∃ c : Comparison, c.comparator? = some .eq ∧ c.version = p ∧
        Condition.Spells cs (.comparison c)) ↔
      p.Spells cs ∨ ∃ rest, cs = '=' :: rest ∧ p.Spells (trimStart rest) := by
  constructor
  · rintro ⟨c, hc, rfl, hspells⟩
    cases hspells with
    | bare hspells => exact .inl hspells
    | @operator ops gap as p hops hne hgap hspells =>
      have hsymbol := Comparator.symbol_of_ofSymbol? hc
      rw [String.toList_ofList] at hsymbol
      obtain rfl : ['='] = ops := hsymbol
      refine .inr ⟨gap ++ as, rfl, ?_⟩
      rwa [trimStart_eq_iff.2 ⟨hspells.isWord.flush, gap, hgap, rfl⟩]
  · rintro (hspells | ⟨rest, rfl, hspells⟩)
    · exact ⟨⟨none, p⟩, rfl, rfl, .bare hspells⟩
    · obtain ⟨-, gap, hgap, hrest⟩ := trimStart_eq_iff.1 (rfl : trimStart rest = _)
      refine ⟨⟨some "=", p⟩, rfl, rfl, ?_⟩
      rw [hrest]
      have hops : Operators ['='] := by decide
      exact .operator hops (List.cons_ne_nil _ _) hgap hspells

theorem undecorated_eq_text_iff {p : Partial} (hp : p.Spellable) {cs : List Char} :
    Version.undecorated cs = p.pieces.text ↔
      p.Spells (trim cs) ∨ ∃ rest, trim cs = '=' :: rest ∧ p.Spells (trimStart rest) := by
  unfold Version.undecorated
  split
  · rename_i rest htrim
    rw [Partial.dropMark_eq_text_iff hp]
    constructor
    · intro h
      exact .inr ⟨rest, htrim, h⟩
    · rintro (h | ⟨rest', heq, h⟩)
      · rw [htrim] at h
        exact absurd (h.not_operator '=' List.mem_cons_self) (by decide)
      · obtain ⟨-, rfl⟩ := List.cons.inj (htrim.symm.trans heq)
        exact h
  · rename_i hsign
    rw [Partial.dropMark_eq_text_iff hp]
    constructor
    · exact .inl
    · rintro (h | ⟨rest, heq, -⟩)
      · exact h
      · exact absurd heq (hsign rest)

/-- What is left of a candidate spells a version if the candidate lays out a comparison for equality
with it. -/
theorem spellable_and_undecorated_iff {p : Partial} {cs : List Char} :
    p.Spellable ∧ Version.undecorated cs = p.pieces.text ↔
      ∃ c : Comparison, c.comparator? = some .eq ∧ c.version = p ∧
        Layout Condition.Spells cs [.comparison c] := by
  simp only [layout_singleton_iff, exists_spells_equality_iff]
  constructor
  · intro h
    exact (undecorated_eq_text_iff h.1).1 h.2
  · intro h
    have hp : p.Spellable := by
      rcases h with h | ⟨rest, -, h⟩
      · exact h.1
      · exact h.1
    exact ⟨hp, (undecorated_eq_text_iff hp).2 h⟩

/-! ## Reading one comparison -/

theorem Segment.eq_nil_of_ofConditions {cs : List Condition}
    (hcomparisons : (ofConditions cs).comparisons = [])
    (hranges : (ofConditions cs).hyphenRanges = []) : cs = [] := by
  cases cs with
  | nil => rfl
  | cons c cs =>
    cases c with
    | comparison c => exact absurd hcomparisons (List.cons_ne_nil _ _)
    | hyphenRange r => exact absurd hranges (List.cons_ne_nil _ _)

theorem Segment.eq_singleton_of_ofConditions {cs : List Condition} {c : Comparison}
    (h : ofConditions cs = ⟨[c], []⟩) : cs = [.comparison c] := by
  obtain ⟨hcomparisons, hranges⟩ := Segment.mk.inj h
  cases cs with
  | nil => exact absurd hcomparisons.symm (List.cons_ne_nil _ _)
  | cons d cs =>
    cases d with
    | comparison d =>
      obtain ⟨rfl, hcs⟩ := List.cons.inj hcomparisons
      rw [eq_nil_of_ofConditions hcs hranges]
    | hyphenRange r => exact absurd hranges (List.cons_ne_nil _ _)

/-- An operator that is cut in two does not ask for equality. -/
theorem BrokenPhrase.not_equality {ws : List (List Char)} {c : Comparison}
    (h : BrokenPhrase ws (.comparison c)) : c.comparator? ≠ some .eq := by
  cases h with
  | @broken d as p hd _ =>
    simp only [Comparison.comparator?, String.toList_ofList]
    rcases hd with rfl | rfl
    · decide
    · decide

theorem Segment.layout_of_read? {cs : List Char} {c : Comparison} (hc : c.comparator? = some .eq)
    (h : read? cs = some ⟨[c], []⟩) : Layout Condition.Spells cs [.comparison c] := by
  obtain ⟨conditions, hsentence, hconditions⟩ := read?_eq_some_iff.1 h
  obtain rfl := eq_singleton_of_ofConditions hconditions.symm
  have hphrases : Sentence Phrase (words cs) [.comparison c] := by
    generalize words cs = ws at hsentence
    cases hsentence with
    | cons hphrase hrest =>
      refine .cons ?_ (by cases hrest; exact .nil)
      rcases hphrase with hphrase | hphrase
      · exact hphrase
      · exact absurd hc (hphrase.broken ⟨_, hc⟩).not_equality
  exact layout_of_sentence cuts_phrase hphrases rfl

/-! ## Building one comparison -/

/-- The requirement is a single comparison for equality, and its interval has both ends at `v`. -/
def Requirement.Pins (r : Requirement) (v : Version) : Prop :=
  ∃ flag flag', r.clause = .either [.every [.leaf ⟨.closed v v, some .eq, flag⟩] flag']

theorem Comparator.interval_eq_of_isExact {p : Partial} (hexact : p.isExact = true) (flag : Bool) :
    eq.interval p flag = (do let v ← p.lowest; return .closed v v) := by
  have hmajor := (Partial.isExact_iff.1 hexact).1
  simp only [interval, hmajor, band, hexact, Bool.false_eq_true, if_false, if_true]

/-- The leaf of equality with an exact version has both ends at the version. -/
theorem Comparison.leaf_of_isExact {c : Comparison} (hc : c.comparator? = some .eq)
    (hexact : c.version.isExact = true) (flag : Bool) :
    c.leaf flag = (do let v ← c.version.lowest; return ⟨.closed v v, some .eq, flag⟩) := by
  have hread : ∃ k, Comparator.read c.symbol = .ok k ∧ k.getD .eq = .eq := by
    rcases comparator?_eq_some_eq_iff.1 hc with hsymbol | hsymbol
    · exact ⟨none, by rw [hsymbol]; rfl, rfl⟩
    · exact ⟨some .eq, by rw [hsymbol]; rfl, rfl⟩
  obtain ⟨k, hk, hget⟩ := hread
  rw [leaf, hk]
  show (do return (⟨← (k.getD .eq).interval c.version flag, some (k.getD .eq), flag⟩ : Leaf)) = _
  rw [hget, Comparator.interval_eq_of_isExact hexact, bind_assoc]
  rfl

/-- No other interval of equality has an upper end that is included. -/
theorem Comparator.isExact_of_extent_eq {p : Partial} {flag : Bool} {v w : Version}
    (h : eq.extent p flag = .closed v w) : p.isExact = true := by
  cases hmajor : Partial.isWildcard p.major with
  | true =>
    have hmax := congrArg Interval.max h
    simp [extent, hmajor, Interval.startingAt, Interval.closed] at hmax
  | false =>
    cases hexact : p.isExact with
    | true => rfl
    | false =>
      have hmax := congrArg Interval.maxInclusive h
      simp [extent_eq hmajor hexact, Interval.upTo, Interval.closed] at hmax

/-- A pinned segment is a single comparison for equality with an exact version. -/
theorem Segment.Spelled.pinned {s : Segment} (hs : s.Spelled) {flag flag' flag'' : Bool}
    {v : Version}
    (h : s.clause flag = .ok (.every [.leaf ⟨.closed v v, some .eq, flag'⟩] flag'')) :
    ∃ c : Comparison, s = ⟨[c], []⟩ ∧ c.comparator? = some .eq ∧ c.version.isExact = true ∧
      c.version.lowest = .ok v := by
  obtain ⟨ls, ls', hcomparisons, hranges, hclause⟩ := clause_eq_ok_iff.1 h
  obtain ⟨hleaves, -⟩ := Clause.every.inj hclause
  obtain ⟨l, hls, hl⟩ := List.map_eq_singleton_iff.1 hleaves.symm
  obtain rfl := Clause.leaf.inj hl
  rcases List.append_eq_singleton_iff.1 hls with ⟨rfl, rfl⟩ | ⟨rfl, rfl⟩
  · -- a hyphen range has no comparator
    obtain ⟨r, hr, hleaf⟩ := List.map_eq_singleton_iff.1 hranges
    obtain ⟨-, -, hl⟩ := hs.leaf_of_hyphenRange (by simp [hr]) hleaf
    exact absurd (congrArg Leaf.comparator hl) (by simp)
  · obtain ⟨c, hc, hleaf⟩ := List.map_eq_singleton_iff.1 hcomparisons
    obtain ⟨k, hk, -, hl⟩ := hs.leaf_of_comparison (by simp [hc]) hleaf
    obtain rfl : .eq = k := Option.some.inj (congrArg Leaf.comparator hl)
    have hexact := Comparator.isExact_of_extent_eq (congrArg Leaf.interval hl).symm
    rw [Comparison.leaf_of_isExact hk hexact] at hleaf
    obtain ⟨w, hw, hleaf⟩ := exists_ok_of_bind hleaf
    have hinterval := congrArg Leaf.interval (Except.ok.inj hleaf)
    obtain rfl : w = v := congrArg Interval.min hinterval
    refine ⟨c, ?_, hk, hexact, hw⟩
    obtain ⟨comparisons, hyphenRanges⟩ := s
    obtain rfl : comparisons = [c] := hc
    obtain rfl : hyphenRanges = [] := List.map_eq_nil_iff.1 hranges
    rfl

namespace Requirement

/-- The pinned requirements are those that lay out a single comparison for equality with an exact
version. -/
theorem exists_pins_iff {raw : String} {flag : Bool} {v : Version} :
    (∃ r, build raw flag = .ok r ∧ r.Pins v) ↔
      ∃ c : Comparison, c.comparator? = some .eq ∧ c.version.isExact = true ∧
        c.version.lowest = .ok v ∧ Layout Condition.Spells raw.toList [.comparison c] := by
  constructor
  · rintro ⟨r, hr, flag', flag'', hclause⟩
    obtain ⟨o, c, ho, hc, rfl⟩ := build_eq_ok_iff.1 hr
    obtain rfl : c = _ := hclause
    obtain ⟨cs, hsegments, heither⟩ := Outline.clause_eq_ok_iff.1 hc
    obtain rfl := Clause.either.inj heither
    obtain ⟨s, hs, hs'⟩ := List.map_eq_singleton_iff.1 hsegments
    have hspelled := Outline.spelled_of_parse ho s (by simp [hs])
    obtain ⟨c, rfl, hequality, hexact, hlowest⟩ := hspelled.pinned hs'
    refine ⟨c, hequality, hexact, hlowest, Segment.layout_of_read? hequality ?_⟩
    obtain ⟨-, hparse⟩ := Outline.parse_eq_ok_iff.1 ho
    rw [hs] at hparse
    obtain ⟨cs, hcs, hread⟩ := List.map_eq_singleton_iff.1 hparse
    rwa [← Outline.eq_of_alternatives_eq_singleton hcs]
  · rintro ⟨c, hequality, hexact, hlowest, hlayout⟩
    have hleaf : c.leaf flag = .ok ⟨.closed v v, some .eq, flag⟩ := by
      rw [Comparison.leaf_of_isExact hequality hexact, hlowest]
      rfl
    have hsegment : (⟨[c], []⟩ : Segment).clause flag =
        .ok (.every [.leaf ⟨.closed v v, some .eq, flag⟩] flag) :=
      Segment.clause_eq_ok_iff.2 ⟨[_], [], by simp [hleaf], rfl, rfl⟩
    have halone := Outline.alternatives_of_not_mem hlayout.not_mem_bar
    have hread := Segment.read?_of_layout hlayout
    exact ⟨_, (build_eq_ok_iff_of_alone halone).2 ⟨_, _, hread, hsegment, rfl⟩, flag, flag, rfl⟩

theorem Pins.accepts {r : Requirement} {v : Version} (h : r.Pins v) : r.accepts v = true := by
  obtain ⟨flag, flag', hclause⟩ := h
  have hcontains : (Interval.closed v v).contains v = true := by
    refine Interval.contains_closed_iff.2 ⟨?_, Version.le_eq_true_iff.1 v.le_refl⟩
    intro hlt
    exact Version.lt_iff_not_le.1 (Version.lt_eq_true_iff.2 hlt) v.le_refl
  have hanchors : v.isRelease = false →
      (⟨.closed v v, some .eq, flag⟩ : Leaf).anchors v = true := by
    intro hpre
    simp [Leaf.anchors, Leaf.boundAnchors, Interval.closed, hpre, Version.sameTriple]
  have hleaf : (⟨.closed v v, some .eq, flag⟩ : Leaf).accepts v = true := by
    simp [Leaf.accepts, Leaf.refusesTriple, hcontains]
  rw [Requirement.accepts, hclause, Clause.accepts_either, List.any_cons, List.any_nil,
    Bool.or_false, Clause.accepts_every]
  cases hpre : v.isRelease with
  | true => simp [Clause.accepts, hleaf]
  | false => simp [Clause.accepts, Clause.anchors, hleaf, hanchors hpre]

/-- **Candidates and requirements agree on versions.** An ASCII text is a version as a candidate
if, as a requirement, it is pinned to that version; the requirement then accepts the candidate. -/
theorem parse_eq_ok_iff_pins {s : String} (hs : ∀ c ∈ s.toList, c.toNat < 128) (flag : Bool) :
    (∀ v, Version.parse s = .ok v ↔ ∃ r, build s flag = .ok r ∧ r.Pins v) ∧
      ∀ r v, build s flag = .ok r → r.Pins v → r.check (.text s) = .ok true := by
  have hparse : ∀ v, Version.parse s = .ok v ↔ ∃ r, build s flag = .ok r ∧ r.Pins v := by
    intro v
    have hascii : ∀ c ∈ Version.undecorated s.toList, c.toNat < 128 := fun c hc =>
      hs c (Version.mem_of_mem_undecorated hc)
    rw [Version.parse_eq_ok_iff, Version.readCore?_eq_some_iff hascii, exists_pins_iff]
    constructor
    · rintro ⟨p, hp, hexact, htext, hlowest⟩
      obtain ⟨c, hequality, rfl, hlayout⟩ := spellable_and_undecorated_iff.1 ⟨hp, htext.symm⟩
      exact ⟨c, hequality, hexact, hlowest, hlayout⟩
    · rintro ⟨c, hequality, hexact, hlowest, hlayout⟩
      obtain ⟨hp, htext⟩ := spellable_and_undecorated_iff.2 ⟨c, hequality, rfl, hlayout⟩
      exact ⟨c.version, hp, hexact, htext.symm, hlowest⟩
  refine ⟨hparse, fun r v hr hpins => ?_⟩
  have hread : (Candidate.text s).read = .ok v := (hparse v).2 ⟨r, hr, hpins⟩
  rw [check_of_read hread, hpins.accepts]

theorem pins_of_decorated : (∀ c ∈ "\t= v1.2.3-a.1+b ".toList, c.toNat < 128) ∧
    Version.parse "\t= v1.2.3-a.1+b " = .ok ⟨⟨1, 2, 3⟩, ["a", "1"], ["b"]⟩ ∧
    ∃ r, build "\t= v1.2.3-a.1+b " false = .ok r ∧ r.Pins ⟨⟨1, 2, 3⟩, ["a", "1"], ["b"]⟩ ∧
      r.check (.text "\t= v1.2.3-a.1+b ") = .ok true := by
  have hascii : ∀ c ∈ "\t= v1.2.3-a.1+b ".toList, c.toNat < 128 := by simp
  have hparse : Version.parse "\t= v1.2.3-a.1+b " = .ok ⟨⟨1, 2, 3⟩, ["a", "1"], ["b"]⟩ := rfl
  obtain ⟨hpins, haccepts⟩ := parse_eq_ok_iff_pins hascii false
  obtain ⟨r, hr, hr'⟩ := (hpins _).1 hparse
  exact ⟨hascii, hparse, r, hr, hr', haccepts r _ hr hr'⟩

end Requirement

end SemverRange
