import Mathlib.Data.List.Forall2
import SemverRange.Proofs.Requirement.Layout
import SemverRange.Proofs.Requirement.Writing
import SemverRange.Proofs.Version.Language

/-!
# The text of a clause determines it

**Leaves.** The text of a leaf has one blank, behind the comma. In front of it there are the tag,
which is made of letters, the bracket, and the lower bound; behind it the upper bound and the
bracket. A bound that was computed from a requirement is regular, and its text is a core, which
writes no other version and starts with a digit, so it is not taken for the `*` of a missing bound.

**Clauses.** A segment has two words for each of its leaves, or the one word `*` if there are none,
and between two segments there is the word `||`. So the words of the text fall apart into those of
the segments, and these into those of the leaves.

Main result: `Requirement.clause_eq_of_text_eq`.
-/

namespace SemverRange

open Text

/-! ## Bounds -/

namespace Version

theorem regular_release {t : Triple} (h : (release t).IsNatural) : (release t).Regular :=
  ⟨h, fun _ hid => absurd hid List.not_mem_nil, fun _ hid => absurd hid List.not_mem_nil⟩

theorem Regular.floor {v : Version} (h : v.Regular) (flag : Bool) : (v.floor flag).Regular := by
  unfold Version.floor
  split
  · refine ⟨h.natural, ?_, fun _ hid => absurd hid List.not_mem_nil⟩
    exact List.forall_mem_singleton.2 (by decide)
  · exact h

end Version

theorem Interval.bounds_regular_empty : empty.Bounds Version.Regular where
  min := Version.regular_release ⟨by decide, by decide, by decide⟩
  max := fun _ htop =>
    Option.some.inj htop ▸ Version.regular_release ⟨by decide, by decide, by decide⟩

namespace Partial

variable {p : Partial}

theorem natural_bandEnd (p : Partial) : (Version.release (p.bandEnd p.base)).IsNatural := by
  have hmajor := value_nonneg p.major
  have hminor := value_nonneg p.minor
  have hpatch := value_nonneg p.patch
  unfold bandEnd
  repeat' split
  all_goals
    simp only [Version.IsNatural, Version.release, base]
    omega

theorem natural_tildeEnd (p : Partial) : (Version.release p.tildeEnd).IsNatural := by
  have hmajor := value_nonneg p.major
  have hminor := value_nonneg p.minor
  unfold tildeEnd
  split
  all_goals
    simp only [Version.IsNatural, Version.release, base]
    omega

theorem natural_caretEnd (p : Partial) :
    (Version.release (p.caretEnd p.base)).IsNatural := by
  have hmajor := value_nonneg p.major
  have hminor := value_nonneg p.minor
  have hpatch := value_nonneg p.patch
  unfold caretEnd
  repeat' split
  all_goals
    simp only [Version.IsNatural, Version.release, base]
    omega

/-- A partial version without faults has a regular bottom. -/
theorem regular_bottom (hp : p.Spellable) (h : p.faults = []) : p.bottom.Regular := by
  obtain ⟨hshape, -, hnamed⟩ := faults_eq_nil_iff.1 h
  refine ⟨⟨value_nonneg _, value_nonneg _, value_nonneg _⟩, fun id hid => ?_, fun id hid => ?_⟩
  · have hexact : p.isExact = true := by
      rw [← Bool.not_eq_false]
      exact fun hpartial => hshape (.inr ⟨hpartial, .inl (List.ne_nil_of_mem hid)⟩)
    refine ⟨hp.prerelease id hid, fun hpadded => ?_, fun hlong => ?_⟩
    · exact hnamed ⟨hexact, .inl ⟨id, hid, .inl hpadded⟩⟩
    · exact hnamed ⟨hexact, .inl ⟨id, hid, .inr hlong⟩⟩
  · have hexact : p.isExact = true := by
      rw [← Bool.not_eq_false]
      exact fun hpartial => hshape (.inr ⟨hpartial, .inr (List.ne_nil_of_mem hid)⟩)
    exact ⟨hp.build id hid, fun hlong => hnamed ⟨hexact, .inr ⟨id, hid, hlong⟩⟩⟩

theorem bounding_regular (hp : p.Spellable) (h : p.faults = []) (flag : Bool) :
    p.Bounding Version.Regular flag where
  empty := Interval.bounds_regular_empty
  bottom := regular_bottom hp h
  floorBottom := by
    unfold floorBottom
    split
    · exact regular_bottom hp h
    · exact (regular_bottom hp h).floor flag
  bandCeiling := (Version.regular_release (natural_bandEnd p)).floor flag
  tildeEnd := (Version.regular_release (natural_tildeEnd p)).floor flag
  caretEnd := (Version.regular_release (natural_caretEnd p)).floor flag

end Partial

/-! ## Leaves -/

namespace Interval

variable {i i' : Interval} {high : String}

/-- The bracket in front of a lower bound. -/
def opening (inclusive : Bool) : Char := if inclusive then '[' else '('

/-- The bracket behind an upper bound. -/
def closing (inclusive : Bool) : Char := if inclusive then ']' else ')'

theorem opening_injective : Function.Injective opening := by
  intro b b'
  revert b b'
  decide

theorem closing_injective : Function.Injective closing := by
  intro b b'
  revert b b'
  decide

theorem toList_opening (inclusive : Bool) :
    (if inclusive then "[" else "(").toList = [opening inclusive] := by
  cases inclusive <;> rfl

theorem toList_closing (inclusive : Bool) :
    (if inclusive then "]" else ")").toList = [closing inclusive] := by
  cases inclusive <;> rfl

theorem core_or_star_of_maxText? (hi : i.Bounds Version.Regular) (h : i.maxText? = some high) :
    (i.max = none ∧ high.toList = ['*']) ∨
      ∃ top, i.max = some top ∧ Version.Core high.toList top := by
  unfold maxText? at h
  split at h
  · rename_i hmax
    obtain rfl := Option.some.inj h
    exact .inl ⟨hmax, rfl⟩
  · rename_i top hmax
    exact .inr ⟨top, hmax, (hi.max top hmax).core_of_text? h⟩

/-- The text of an upper bound determines it, also if it is missing. -/
theorem max_eq_of_maxText?_eq (hi : i.Bounds Version.Regular) (hi' : i'.Bounds Version.Regular)
    (h : i.maxText? = some high) (h' : i'.maxText? = some high) : i.max = i'.max := by
  have hstar : ∀ {v}, ¬ Version.Core ['*'] v := fun hcore =>
    hcore.head?_ne (by decide) rfl
  rcases core_or_star_of_maxText? hi h with ⟨hmax, hhigh⟩ | ⟨top, hmax, hcore⟩
  · rcases core_or_star_of_maxText? hi' h' with ⟨hmax', -⟩ | ⟨top', -, hcore'⟩
    · rw [hmax, hmax']
    · exact absurd (hhigh ▸ hcore') hstar
  · rcases core_or_star_of_maxText? hi' h' with ⟨-, hhigh⟩ | ⟨top', hmax', hcore'⟩
    · exact absurd (hhigh ▸ hcore) hstar
    · rw [hmax, hmax', hcore.unique hcore']

end Interval

namespace Leaf

variable {l l' : Leaf} {flag : Bool} {first second : List Char}

/-- The bounds are regular, and pre-releases are treated as given. -/
structure Regular (l : Leaf) (includePrerelease : Bool) : Prop where
  bounds : l.interval.Bounds Version.Regular
  flag_eq : l.includePrerelease = includePrerelease

/-- The two words of the text of a regular leaf. -/
inductive Words (flag : Bool) (l : Leaf) : List Char → List Char → Prop
  | words {low high : String} : l.Regular flag → l.interval.min.text? = some low →
      l.interval.maxText? = some high →
      Words flag l
        (l.tag.toList ++ Interval.opening l.interval.minInclusive :: (low.toList ++ [',']))
        (high.toList ++ [Interval.closing l.interval.maxInclusive])

theorem isIdentifierChar_of_mem_tag (l : Leaf) :
    ∀ c ∈ l.tag.toList, Written.isIdentifierChar c = true := by
  refine List.all_eq_true.1 ?_
  unfold tag
  cases l.comparator with
  | none => decide
  | some k => cases k <;> decide

theorem find?_tag (k : Comparator) : Comparator.all.find? (·.tag == k.tag) = some k := by
  cases k <;> rfl

theorem tag_ne_dash (k : Comparator) : k.tag ≠ "DASH" := by
  cases k <;> decide

theorem comparator_eq_of_tag_eq (h : l.tag = l'.tag) : l.comparator = l'.comparator := by
  unfold tag at h
  generalize l.comparator = k at h
  generalize l'.comparator = k' at h
  cases k with
  | none =>
    cases k' with
    | none => rfl
    | some k' => exact absurd h.symm (tag_ne_dash k')
  | some k =>
    cases k' with
    | none => exact absurd h (tag_ne_dash k)
    | some k' =>
      have htag : k.tag = k'.tag := h
      rw [← find?_tag k, htag, find?_tag k']

/-- Texts that start with characters of a class and go on with another one are cut there. -/
theorem eq_of_append_cons_eq {p : Char → Bool} {as as' bs bs' : List Char} {x x' : Char}
    (has : ∀ a ∈ as, p a = true) (has' : ∀ a ∈ as', p a = true) (hx : p x = false)
    (hx' : p x' = false) (h : as ++ x :: bs = as' ++ x' :: bs') : as = as' ∧ x = x' ∧ bs = bs' := by
  have htake : as = as' := by
    have htakes := congrArg (List.takeWhile p) h
    rwa [List.takeWhile_append_of_pos has, List.takeWhile_append_of_pos has',
      List.takeWhile_cons_of_neg (by simp [hx]), List.takeWhile_cons_of_neg (by simp [hx']),
      List.append_nil, List.append_nil] at htakes
  subst htake
  obtain ⟨hhead, htail⟩ := List.cons.inj (List.append_cancel_left h)
  exact ⟨rfl, hhead, htail⟩

/-- The words of a leaf determine it. -/
theorem Words.unique (h : Words flag l first second) (h' : Words flag l' first second) :
    l = l' := by
  cases h with
  | @words low high hl hlow hhigh =>
    generalize hfirst : l.tag.toList ++ _ = first' at h'
    generalize hsecond : high.toList ++ _ = second' at h'
    cases h' with
    | @words low' high' hl' hlow' hhigh' =>
      have hopening : ∀ b, Written.isIdentifierChar (Interval.opening b) = false := by decide
      obtain ⟨htag, hminInclusive, hrest⟩ := eq_of_append_cons_eq l.isIdentifierChar_of_mem_tag
        l'.isIdentifierChar_of_mem_tag (hopening _) (hopening _) hfirst
      obtain ⟨hhighs, hmaxInclusive⟩ := List.append_inj' hsecond rfl
      have hcomparator := comparator_eq_of_tag_eq (String.toList_inj.1 htag)
      have hmin : l.interval.min = l'.interval.min := by
        obtain rfl := String.toList_inj.1 (List.append_cancel_right hrest)
        exact (hl.bounds.min.core_of_text? hlow).unique (hl'.bounds.min.core_of_text? hlow')
      have hmax : l.interval.max = l'.interval.max := by
        obtain rfl := String.toList_inj.1 hhighs
        exact Interval.max_eq_of_maxText?_eq hl.bounds hl'.bounds hhigh hhigh'
      have hminInclusive := Interval.opening_injective hminInclusive
      have hmaxInclusive := Interval.closing_injective (List.head_eq_of_cons_eq hmaxInclusive)
      have hflag := hl.flag_eq.trans hl'.flag_eq.symm
      obtain ⟨⟨_, _, _, _⟩, _, _⟩ := l
      obtain ⟨⟨_, _, _, _⟩, _, _⟩ := l'
      simp only at hmin hmax hminInclusive hmaxInclusive hcomparator hflag
      rw [hmin, hmax, hminInclusive, hmaxInclusive, hcomparator, hflag]

theorem Words.isWord (h : Words flag l first second) : IsWord first ∧ IsWord second := by
  have htag : ∀ c ∈ l.tag.toList, isBlank c = false := fun c hc => by
    rw [← Bool.not_eq_true]
    intro hblank
    have hchar := l.isIdentifierChar_of_mem_tag c hc
    rw [Written.isIdentifierChar_of_isBlank hblank] at hchar
    exact absurd hchar (by decide)
  have hopening : ∀ b, isBlank (Interval.opening b) = false := by decide
  have hclosing : ∀ b, isBlank (Interval.closing b) = false := by decide
  have hcomma : isBlank ',' = false := by decide
  cases h with
  | @words low high hl hlow hhigh =>
    have hlow := (hl.bounds.min.core_of_text? hlow).isWord
    have hhigh : IsWord high.toList := by
      rcases Interval.core_or_star_of_maxText? hl.bounds hhigh with ⟨-, hhigh⟩ | ⟨top, -, hcore⟩
      · rw [hhigh]
        exact ⟨by decide, List.forall_mem_singleton.2 (by decide)⟩
      · exact hcore.isWord
    refine ⟨⟨by simp, fun c hc => ?_⟩, ⟨by simp, fun c hc => ?_⟩⟩
    · simp only [List.mem_append, List.mem_cons, List.not_mem_nil, or_false] at hc
      rcases hc with hc | rfl | hc | rfl
      · exact htag c hc
      · exact hopening _
      · exact hlow.2 c hc
      · exact hcomma
    · rcases List.mem_append.1 hc with hc | hc
      · exact hhigh.2 c hc
      · rw [List.mem_singleton.1 hc]
        exact hclosing _

/-- The text of a leaf has two words. -/
theorem exists_words {text : String} (hl : l.Regular flag) (h : l.text? = some text) :
    ∃ first second, Words flag l first second ∧ words text.toList = [first, second] := by
  obtain ⟨i, hi, rfl⟩ := Option.map_eq_some_iff.1 h
  simp only [Interval.text?, Option.bind_eq_bind, Option.bind_eq_some_iff, Option.pure_def,
    Option.some.injEq] at hi
  obtain ⟨low, hlow, high, hhigh, rfl⟩ := hi
  have hwords := Words.words hl hlow hhigh
  obtain ⟨hfirst, hsecond⟩ := hwords.isWord
  refine ⟨_, _, hwords, ?_⟩
  rw [← List.singleton_append, ← words_of_isWord hfirst, ← words_of_isWord hsecond,
    ← words_append_cons _ _ (by decide : isBlank ' ' = true)]
  simp [String.toList_append, Interval.toList_opening, Interval.toList_closing]

/-- The words of a leaf have brackets in them. -/
theorem Words.ne_bars (h : Words flag l first second) :
    first ≠ ['|', '|'] ∧ second ≠ ['|', '|'] := by
  have hopening : ∀ b, Interval.opening b ∉ ['|', '|'] := by decide
  have hclosing : ∀ b, Interval.closing b ∉ ['|', '|'] := by decide
  cases h with
  | words =>
    refine ⟨fun heq => hopening l.interval.minInclusive ?_,
      fun heq => hclosing l.interval.maxInclusive ?_⟩
    · rw [← heq]
      simp
    · rw [← heq]
      simp

end Leaf

/-! ## Segments -/

namespace Segment

variable {flag : Bool} {ls ls' : List Leaf} {ws : List (List Char)}

/-- The words of the texts of leaves, two for each. -/
inductive LeafWords (flag : Bool) : List Leaf → List (List Char) → Prop
  | nil : LeafWords flag [] []
  | cons {l : Leaf} {first second : List Char} {ls : List Leaf} {ws : List (List Char)} :
      l.Words flag first second → LeafWords flag ls ws →
      LeafWords flag (l :: ls) (first :: second :: ws)

/-- The words of the text of a segment: those of its leaves, or `*` if it has none. -/
inductive Words (flag : Bool) : List Leaf → List (List Char) → Prop
  | star : Words flag [] [['*']]
  | leaves {l : Leaf} {ls : List Leaf} {ws : List (List Char)} :
      LeafWords flag (l :: ls) ws → Words flag (l :: ls) ws

theorem LeafWords.unique (h : LeafWords flag ls ws) : LeafWords flag ls' ws → ls = ls' := by
  induction h generalizing ls' with
  | nil =>
    intro h'
    cases h'
    rfl
  | cons hl _ ih =>
    intro h'
    cases h' with
    | cons hl' hls' => rw [hl.unique hl', ih hls']

theorem LeafWords.ne_bars (h : LeafWords flag ls ws) : ['|', '|'] ∉ ws := by
  induction h with
  | nil => exact List.not_mem_nil
  | cons hl _ ih => simp [hl.ne_bars.1.symm, hl.ne_bars.2.symm, ih]

/-- The words of a segment determine its leaves. -/
theorem Words.unique (h : Words flag ls ws) (h' : Words flag ls' ws) : ls = ls' := by
  cases h with
  | star =>
    cases h' with
    | star => rfl
    | leaves hls' => cases hls'
  | leaves hls =>
    cases h' with
    | star => cases hls
    | leaves hls' => exact hls.unique hls'

theorem Words.ne_bars (h : Words flag ls ws) : ['|', '|'] ∉ ws := by
  cases h with
  | star => decide
  | leaves hls => exact hls.ne_bars

theorem leafWords_of_texts {texts : List String} (hls : ∀ l ∈ ls, l.Regular flag)
    (h : ls.map Leaf.text? = texts.map some) :
    LeafWords flag ls ((texts.map (·.toList)).flatMap words) := by
  induction ls generalizing texts with
  | nil =>
    obtain rfl : texts = [] := by simpa using h.symm
    exact .nil
  | cons l ls ih =>
    cases texts with
    | nil => exact absurd h (by simp)
    | cons text texts =>
      obtain ⟨htext, hrest⟩ := List.cons.inj h
      obtain ⟨first, second, hl, hwords⟩ := Leaf.exists_words (hls l List.mem_cons_self) htext
      rw [List.map_cons, List.flatMap_cons, hwords]
      exact .cons hl (ih (fun m hm => hls m (List.mem_cons_of_mem l hm)) hrest)

/-- The text of a segment has the words of its leaves. -/
theorem words_text {text : String} (hls : ∀ l ∈ ls, l.Regular flag)
    (h : (Clause.every (ls.map .leaf) flag).text? = some text) :
    Words flag ls (words text.toList) := by
  rw [Clause.text?, Clause.texts?_eq_mapM] at h
  obtain ⟨texts, htexts, rfl⟩ := Option.map_eq_some_iff.1 h
  have hleaf : Clause.text? ∘ Clause.leaf = Leaf.text? := funext fun l => by
    rw [Function.comp_apply, Clause.text?]
  rw [mapM_eq_some_iff, List.map_map, hleaf] at htexts
  have hleaves := leafWords_of_texts hls htexts
  have hwords : words (" ".intercalate texts).toList = (texts.map (·.toList)).flatMap words := by
    rw [String.toList_intercalate]
    exact words_intercalate_blank (by decide) _
  rw [← hwords] at hleaves
  cases ls with
  | nil =>
    obtain rfl : texts = [] := by simpa using htexts.symm
    exact .star
  | cons l ls =>
    have hne : (" ".intercalate texts).isEmpty = false := by
      rw [← Bool.not_eq_true, String.isEmpty_iff]
      intro hempty
      rw [hempty] at hleaves
      cases hleaves
    rw [hne]
    exact .leaves hleaves

end Segment

/-! ## Requirements -/

namespace Clause

/-- The clause of a requirement whose segments have the given leaves. -/
def ofLeaves (lss : List (List Leaf)) (includePrerelease : Bool) : Clause :=
  .either (lss.map fun ls => .every (ls.map .leaf) includePrerelease)

variable {lss lss' : List (List Leaf)} {flag : Bool} {text : String}

theorem segmentWords_of_texts {texts : List String} (hlss : ∀ ls ∈ lss, ∀ l ∈ ls, l.Regular flag)
    (h : (lss.map fun ls => every (ls.map leaf) flag).map text? = texts.map some) :
    List.Forall₂ (Segment.Words flag) lss ((texts.map (·.toList)).map words) := by
  induction lss generalizing texts with
  | nil =>
    obtain rfl : texts = [] := by simpa using h.symm
    exact .nil
  | cons ls lss ih =>
    cases texts with
    | nil => exact absurd h (by simp)
    | cons text texts =>
      obtain ⟨htext, hrest⟩ := List.cons.inj h
      have hls := Segment.words_text (hlss ls List.mem_cons_self) htext
      exact .cons hls (ih (fun ms hms => hlss ms (List.mem_cons_of_mem ls hms)) hrest)

/-- The text of a clause has the words of its segments, with bars between them. -/
theorem exists_words_ofLeaves (hlss : ∀ ls ∈ lss, ∀ l ∈ ls, l.Regular flag)
    (h : (ofLeaves lss flag).text? = some text) :
    ∃ wss, List.Forall₂ (Segment.Words flag) lss wss ∧
      words text.toList = [['|', '|']].intercalate wss := by
  rw [ofLeaves, text?_either] at h
  obtain ⟨texts, htexts, rfl⟩ := Option.map_eq_some_iff.1 h
  have hbars : ∀ c ∈ ['|', '|'], isBlank c = false :=
    List.forall_mem_cons.2 ⟨by decide, List.forall_mem_singleton.2 (by decide)⟩
  refine ⟨_, segmentWords_of_texts hlss (mapM_eq_some_iff.1 htexts), ?_⟩
  rw [String.toList_intercalate]
  exact words_intercalate_word ⟨by decide, hbars⟩ (by decide) (by decide) _

/-- **The text determines the leaves of all segments.** -/
theorem leaves_eq_of_text?_eq (hne : lss ≠ []) (hne' : lss' ≠ [])
    (hlss : ∀ ls ∈ lss, ∀ l ∈ ls, l.Regular flag) (hlss' : ∀ ls ∈ lss', ∀ l ∈ ls, l.Regular flag)
    (h : (ofLeaves lss flag).text? = some text) (h' : (ofLeaves lss' flag).text? = some text) :
    lss = lss' := by
  have hsplit : ∀ {lss : List (List Leaf)} {wss}, lss ≠ [] →
      List.Forall₂ (Segment.Words flag) lss wss →
      ([['|', '|']].intercalate wss).splitOn ['|', '|'] = wss := by
    intro lss wss hne hwss
    refine List.splitOn_intercalate _ ?_ ?_
    · clear hne
      induction hwss with
      | nil => exact fun ws hws => absurd hws List.not_mem_nil
      | cons hws _ ih => exact List.forall_mem_cons.2 ⟨hws.ne_bars, ih⟩
    · rintro rfl
      exact hne (List.forall₂_nil_right_iff.1 hwss)
  obtain ⟨wss, hwss, hwords⟩ := exists_words_ofLeaves hlss h
  obtain ⟨wss', hwss', hwords'⟩ := exists_words_ofLeaves hlss' h'
  have heq : wss = wss' := by
    rw [← hsplit hne hwss, ← hwords, hwords', hsplit hne' hwss']
  have hunique : Relator.LeftUnique (Segment.Words flag) := fun _ _ _ => Segment.Words.unique
  exact List.left_unique_forall₂' hunique hwss (heq ▸ hwss')

end Clause

theorem Segment.Spelled.regular_of_hasLeaf {s : Segment} (hs : s.Spelled) (h : s.faults = [])
    {flag : Bool} {l : Leaf} (hl : s.HasLeaf flag l) : l.Regular flag := by
  obtain ⟨hcomparisons, hranges⟩ := List.append_eq_nil_iff.1 h
  cases hl with
  | @comparison c k hc _ =>
    obtain ⟨hp, -⟩ := hs.comparison c hc
    obtain ⟨-, hversion⟩ := List.append_eq_nil_iff.1 (List.flatMap_eq_nil_iff.1 hcomparisons c hc)
    exact ⟨k.bounds_extent (Partial.bounding_regular hp hversion flag), rfl⟩
  | @hyphenRange r hr =>
    obtain ⟨hlow, hhigh⟩ := hs.hyphenRange r hr
    obtain ⟨hlowFaults, hhighFaults⟩ :=
      List.append_eq_nil_iff.1 (List.flatMap_eq_nil_iff.1 hranges r hr)
    exact ⟨Interval.bounds_span (Partial.bounding_regular hlow hlowFaults flag)
      (Partial.bounding_regular hhigh hhighFaults flag), rfl⟩

theorem exists_map_eq_of_forall {α β : Type} {f : α → β} {P : α → Prop} {ys : List β}
    (h : ∀ y ∈ ys, ∃ x, f x = y ∧ P x) : ∃ xs : List α, xs.map f = ys ∧ ∀ x ∈ xs, P x := by
  induction ys with
  | nil => exact ⟨[], rfl, fun x hx => absurd hx List.not_mem_nil⟩
  | cons y ys ih =>
    obtain ⟨⟨x, rfl, hx⟩, hys⟩ := List.forall_mem_cons.1 h
    obtain ⟨xs, rfl, hxs⟩ := ih hys
    exact ⟨x :: xs, rfl, List.forall_mem_cons.2 ⟨hx, hxs⟩⟩

namespace Requirement

/-- The clause of a requirement has segments of regular leaves, at least one segment. -/
theorem exists_leaves_of_build {raw : String} {flag : Bool} {r : Requirement}
    (h : build raw flag = .ok r) : ∃ lss, lss ≠ [] ∧ r.clause = Clause.ofLeaves lss flag ∧
      ∀ ls ∈ lss, ∀ l ∈ ls, l.Regular flag := by
  obtain ⟨o, c, ho, hc, rfl⟩ := build_eq_ok_iff.1 h
  have hfaults := (exists_build_iff_faults ho flag).1 ⟨_, h⟩
  obtain ⟨cs, hcs, rfl⟩ := Outline.clause_eq_ok_iff.1 hc
  have hleaves : ∀ d ∈ cs, ∃ ls : List Leaf, .every (ls.map .leaf) flag = d ∧
      ∀ l ∈ ls, l.Regular flag := by
    intro d hd
    obtain ⟨s, hs, hclause⟩ := exists_mem_of_map_eq_map hcs.symm hd
    have hspelled := Outline.spelled_of_parse ho s hs
    obtain ⟨ls, rfl, hls⟩ := Segment.clause_eq_ok hspelled hclause
    exact ⟨ls, rfl, fun l hl =>
      hspelled.regular_of_hasLeaf (List.flatMap_eq_nil_iff.1 hfaults s hs) ((hls l).1 hl)⟩
  obtain ⟨lss, rfl, hlss⟩ := exists_map_eq_of_forall hleaves
  refine ⟨lss, ?_, rfl, hlss⟩
  rintro rfl
  obtain ⟨-, hsegments⟩ := Outline.parse_eq_ok_iff.1 ho
  have hnone : o.segments = [] := List.map_eq_nil_iff.1 hcs
  rw [hnone] at hsegments
  exact Outline.alternatives_ne_nil _ (List.map_eq_nil_iff.1 hsegments)

/-- **The text of a clause determines it.** If the clauses of two requirements that treat
pre-releases alike have the same text, then they are the same tree of the same leaves, and so the
requirements accept the same versions. -/
theorem clause_eq_of_text_eq {raw raw' : String} {flag : Bool} {r r' : Requirement}
    (hr : build raw flag = .ok r) (hr' : build raw' flag = .ok r') {text : String}
    (ht : r.clause.text? = some text) (ht' : r'.clause.text? = some text) :
    r.clause = r'.clause ∧ ∀ v, r.accepts v = r'.accepts v := by
  obtain ⟨lss, hne, hclause, hlss⟩ := exists_leaves_of_build hr
  obtain ⟨lss', hne', hclause', hlss'⟩ := exists_leaves_of_build hr'
  rw [hclause] at ht
  rw [hclause'] at ht'
  have heq : r.clause = r'.clause := by
    rw [hclause, hclause', Clause.leaves_eq_of_text?_eq hne hne' hlss hlss' ht ht']
  exact ⟨heq, fun v => by rw [accepts, accepts, heq]⟩

theorem clause_eq_of_text_eq_caret : ∃ r r', build "^1.2 || " false = .ok r ∧
    build "^1.2.0||" false = .ok r' ∧ r.clause.text? = some "CARET[1.2.0, 2.0.0) || *" ∧
    r'.clause.text? = some "CARET[1.2.0, 2.0.0) || *" ∧
    r.clause = r'.clause ∧ ∀ v, r.accepts v = r'.accepts v := by
  have htext : (build "^1.2 || " false).toOption.map (·.clause.text?) =
      some (some "CARET[1.2.0, 2.0.0) || *") := by
    decide +kernel
  have htext' : (build "^1.2.0||" false).toOption.map (·.clause.text?) =
      some (some "CARET[1.2.0, 2.0.0) || *") := by
    decide +kernel
  obtain ⟨r, hr, ht⟩ := Option.map_eq_some_iff.1 htext
  obtain ⟨r', hr', ht'⟩ := Option.map_eq_some_iff.1 htext'
  have hbuild := eq_ok_of_toOption hr
  have hbuild' := eq_ok_of_toOption hr'
  exact ⟨r, r', hbuild, hbuild', ht, ht', clause_eq_of_text_eq hbuild hbuild' ht ht'⟩

end Requirement

end SemverRange
