import SemverRange.Text.Blank

/-!
# Words and the blanks around them

**Splitting.** The pieces of a split hold no separator. **Words.** A blank ends a word, so the
words of two texts with a blank between them are the words of the one and then those of the other
(`words_append_cons`); more blanks make no difference.

**Reading backwards.** A text that has words is a gap, its first word, and a rest that is empty or
starts with a blank and has the other words (`words_eq_cons`). Every character that is not blank
is in a word.

**Trimming** takes off the gaps at the ends and leaves what has no blank there (`trim_eq_iff`).
-/

namespace SemverRange.Text

/-! ## Pieces of a split -/

theorem separatorFree_of_mem_splitOnP {p : Char → Bool} (cs : List Char) :
    ∀ piece ∈ cs.splitOnP p, ∀ c ∈ piece, p c = false := by
  induction cs with
  | nil => simp
  | cons d ds ih =>
    obtain ⟨first, others, hds⟩ := List.exists_cons_of_ne_nil (List.splitOnP_ne_nil p ds)
    rw [hds] at ih
    by_cases hd : p d = true
    · simpa [List.splitOnP_cons_eq_if_modifyHead, hd, hds] using ih
    · simp only [Bool.not_eq_true] at hd
      simpa [List.splitOnP_cons_eq_if_modifyHead, hd, hds] using ih

theorem subset_of_mem_splitOnP {p : Char → Bool} (cs : List Char) :
    ∀ piece ∈ cs.splitOnP p, piece ⊆ cs := by
  induction cs with
  | nil => simp
  | cons d ds ih =>
    rw [List.splitOnP_cons_eq_if_modifyHead]
    split
    · exact List.forall_mem_cons.2 ⟨List.nil_subset _, fun piece hpiece =>
        List.subset_cons_of_subset d (ih piece hpiece)⟩
    · obtain ⟨first, others, hds⟩ := List.exists_cons_of_ne_nil (List.splitOnP_ne_nil p ds)
      rw [hds] at ih ⊢
      obtain ⟨hfirst, hothers⟩ := List.forall_mem_cons.1 ih
      exact List.forall_mem_cons.2 ⟨List.cons_subset_cons d hfirst, fun piece hpiece =>
        List.subset_cons_of_subset d (hothers piece hpiece)⟩

theorem not_mem_of_mem_splitOn {c : Char} {cs piece : List Char} (h : piece ∈ cs.splitOn c) :
    c ∉ piece := by
  rw [List.splitOn_eq_splitOnP] at h
  intro hc
  have := separatorFree_of_mem_splitOnP cs piece h c hc
  simp at this

theorem mem_intercalate {c : Char} {sep piece : List Char} {pieces : List (List Char)}
    (h : piece ∈ pieces) (hc : c ∈ piece) : c ∈ sep.intercalate pieces := by
  induction pieces with
  | nil => exact absurd h List.not_mem_nil
  | cons first others ih =>
    cases others with
    | nil =>
      rw [List.mem_singleton] at h
      simpa [← h] using hc
    | cons second others =>
      rw [List.intercalate_cons_cons]
      rcases List.mem_cons.1 h with rfl | h
      · exact List.mem_append_left _ (List.mem_append_left _ hc)
      · exact List.mem_append_right _ (ih h)

theorem mem_of_mem_splitOn {c d : Char} {cs piece : List Char} (h : piece ∈ cs.splitOn c)
    (hd : d ∈ piece) : d ∈ cs := by
  have hcs : [c].intercalate (cs.splitOn c) = cs := List.intercalate_splitOn c
  rw [← hcs]
  exact mem_intercalate h hd

/-! ## Words -/

/-- Nothing but blanks. -/
def Gap (cs : List Char) : Prop := ∀ c ∈ cs, isBlank c = true

instance (cs : List Char) : Decidable (Gap cs) :=
  decidable_of_iff (cs.all isBlank = true) List.all_eq_true

/-- Not empty, and without blanks. -/
def IsWord (w : List Char) : Prop := w ≠ [] ∧ ∀ c ∈ w, isBlank c = false

theorem gap_nil : Gap [] := fun _ h => absurd h List.not_mem_nil

/-- A blank separates words. -/
theorem words_append_cons (cs rest : List Char) {b : Char} (hb : isBlank b = true) :
    words (cs ++ b :: rest) = words cs ++ words rest := by
  rw [words, List.splitOnP_append_cons cs rest hb, List.filter_append]
  rfl

theorem words_cons (rest : List Char) {b : Char} (hb : isBlank b = true) :
    words (b :: rest) = words rest :=
  words_append_cons [] rest hb

theorem words_gap_append {gap : List Char} (hgap : Gap gap) (cs : List Char) :
    words (gap ++ cs) = words cs := by
  induction gap with
  | nil => rfl
  | cons b gap ih =>
    rw [List.cons_append, words_cons _ (hgap b List.mem_cons_self)]
    exact ih fun c hc => hgap c (List.mem_cons_of_mem _ hc)

theorem words_gap {gap : List Char} (hgap : Gap gap) : words gap = [] := by
  rw [← List.append_nil gap, words_gap_append hgap]
  rfl

theorem words_of_isWord {w : List Char} (hw : IsWord w) : words w = [w] := by
  rw [words, List.splitOnP_eq_singleton hw.2]
  simp [hw.1]

/-- A blank between texts puts their words one after the other. -/
theorem words_intercalate_blank {b : Char} (hb : isBlank b = true) (texts : List (List Char)) :
    words ([b].intercalate texts) = texts.flatMap words := by
  induction texts with
  | nil => exact words_gap gap_nil
  | cons cs texts ih =>
    cases texts with
    | nil => simp
    | cons ds texts =>
      rw [List.intercalate_cons_cons, List.append_assoc, List.singleton_append,
        words_append_cons _ _ hb, ih]
      exact List.flatMap_cons.symm

/-- Between texts a word with blanks around it stands between their words. -/
theorem words_intercalate_word {w : List Char} (hw : IsWord w) {b b' : Char}
    (hb : isBlank b = true) (hb' : isBlank b' = true) (texts : List (List Char)) :
    words ((b :: (w ++ [b'])).intercalate texts) = [w].intercalate (texts.map words) := by
  induction texts with
  | nil => exact words_gap gap_nil
  | cons cs texts ih =>
    cases texts with
    | nil => simp
    | cons ds texts =>
      have hsplit : cs ++ (b :: (w ++ [b'])) ++ (b :: (w ++ [b'])).intercalate (ds :: texts) =
          cs ++ b :: (w ++ b' :: (b :: (w ++ [b'])).intercalate (ds :: texts)) := by simp
      rw [List.intercalate_cons_cons, hsplit, words_append_cons cs _ hb, words_append_cons w _ hb',
        words_of_isWord hw, ih]
      simp only [List.map_cons, List.intercalate_cons_cons, List.append_assoc]

/-! ## A text from its words -/

/-- Nothing, or a text that starts with a blank. -/
def StartsBlank (rest : List Char) : Prop := ∀ c ∈ rest.head?, isBlank c = true

instance (rest : List Char) : Decidable (StartsBlank rest) :=
  decidable_of_iff (rest.head?.all isBlank = true) (Option.all_eq_true isBlank rest.head?)

theorem words_append_of_startsBlank (cs : List Char) {rest : List Char} (hr : StartsBlank rest) :
    words (cs ++ rest) = words cs ++ words rest := by
  cases rest with
  | nil => rw [List.append_nil, words_gap gap_nil, List.append_nil]
  | cons b rest =>
    have hb : isBlank b = true := hr b rfl
    rw [words_append_cons _ _ hb, words_cons _ hb]

theorem words_append_of_endsBlank {cs : List Char} (hcs : StartsBlank cs.reverse)
    (rest : List Char) : words (cs ++ rest) = words cs ++ words rest := by
  rcases List.eq_nil_or_concat cs with rfl | ⟨front, b, rfl⟩
  · rfl
  · have hb : isBlank b = true := hcs b (by simp)
    rw [List.concat_append, List.concat_eq_append, words_append_cons front rest hb,
      words_append_cons front [] hb, words_gap gap_nil, List.append_nil]

theorem words_word_append {w rest : List Char} (hw : IsWord w) (hr : StartsBlank rest) :
    words (w ++ rest) = w :: words rest := by
  rw [words_append_of_startsBlank w hr, words_of_isWord hw, List.singleton_append]

theorem ne_nil_of_startsBlank {gap w rest : List Char} (h : StartsBlank (gap ++ (w ++ rest)))
    (hw : IsWord w) : gap ≠ [] := by
  rintro rfl
  obtain ⟨c, cs, rfl⟩ := List.exists_cons_of_ne_nil hw.1
  have hblank := h c rfl
  rw [hw.2 c List.mem_cons_self] at hblank
  exact absurd hblank (by decide)

theorem startsBlank_gap_append {gap : List Char} (hne : gap ≠ []) (hgap : Gap gap)
    (rest : List Char) : StartsBlank (gap ++ rest) := by
  obtain ⟨b, gap, rfl⟩ := List.exists_cons_of_ne_nil hne
  intro c hc
  obtain rfl : b = c := Option.some.inj hc
  exact hgap b List.mem_cons_self

/-- A text is blank, or a gap, a word and a rest that does not continue the word. -/
theorem gap_or_word (cs : List Char) :
    Gap cs ∨ ∃ gap w rest, cs = gap ++ (w ++ rest) ∧ Gap gap ∧ IsWord w ∧ StartsBlank rest := by
  have hgap : Gap (cs.takeWhile isBlank) := List.all_eq_true.1 List.all_takeWhile
  have hsplit := List.takeWhile_append_dropWhile (p := isBlank) (l := cs)
  cases htail : cs.dropWhile isBlank with
  | nil =>
    rw [htail, List.append_nil] at hsplit
    exact .inl (hsplit ▸ hgap)
  | cons c tail =>
    have hc : isBlank c = false := by
      have := List.head_dropWhile_not (p := isBlank) (l := cs) (by simp [htail])
      simpa [htail] using this
    refine .inr ⟨_, (c :: tail).takeWhile (!isBlank ·), (c :: tail).dropWhile (!isBlank ·),
      ?_, hgap, ⟨?_, ?_⟩, ?_⟩
    · rw [List.takeWhile_append_dropWhile, ← htail, hsplit]
    · simp [hc]
    · intro d hd
      have := List.all_eq_true.1 List.all_takeWhile d hd
      simpa using this
    · intro d hd
      have := List.head?_dropWhile_not (!isBlank ·) (c :: tail)
      rw [Option.mem_def.1 hd] at this
      simpa using this

theorem words_eq_nil_iff {cs : List Char} : words cs = [] ↔ Gap cs := by
  constructor
  · intro h
    rcases gap_or_word cs with hgap | ⟨gap, w, rest, rfl, hgap, hw, hr⟩
    · exact hgap
    · rw [words_gap_append hgap, words_word_append hw hr] at h
      exact absurd h (List.cons_ne_nil _ _)
  · exact words_gap

/-- A text with words is a gap, its first word and the rest. -/
theorem words_eq_cons {cs w : List Char} {ws : List (List Char)} (h : words cs = w :: ws) :
    ∃ gap rest, cs = gap ++ (w ++ rest) ∧ Gap gap ∧ IsWord w ∧ StartsBlank rest ∧
      words rest = ws := by
  rcases gap_or_word cs with hgap | ⟨gap, v, rest, rfl, hgap, hv, hr⟩
  · rw [words_gap hgap] at h
    exact absurd h.symm (List.cons_ne_nil _ _)
  · rw [words_gap_append hgap, words_word_append hv hr] at h
    obtain ⟨rfl, rfl⟩ := List.cons.inj h
    exact ⟨gap, rest, rfl, hgap, hv, hr, rfl⟩

theorem words_eq_cons_cons {cs w v : List Char} {ws : List (List Char)}
    (h : words cs = w :: v :: ws) :
    ∃ gap gap' rest, cs = gap ++ (w ++ (gap' ++ (v ++ rest))) ∧ Gap gap ∧ gap' ≠ [] ∧ Gap gap' ∧
      StartsBlank rest ∧ words rest = ws := by
  obtain ⟨gap, tail, rfl, hgap, -, htail, h⟩ := words_eq_cons h
  obtain ⟨gap', rest, rfl, hgap', hv, hrest, h⟩ := words_eq_cons h
  exact ⟨gap, gap', rest, rfl, hgap, ne_nil_of_startsBlank htail hv, hgap', hrest, h⟩

theorem exists_mem_words {c : Char} (hc : isBlank c = false) {ws : List (List Char)} :
    ∀ {cs : List Char}, words cs = ws → c ∈ cs → ∃ w ∈ ws, c ∈ w := by
  have hgap : ∀ {gap : List Char}, Gap gap → c ∉ gap := by
    intro gap hgap hmem
    rw [hgap c hmem] at hc
    exact absurd hc (by decide)
  induction ws with
  | nil =>
    intro cs hcs hmem
    exact absurd hmem (hgap (words_eq_nil_iff.1 hcs))
  | cons w ws ih =>
    intro cs hcs hmem
    obtain ⟨gap, rest, rfl, hg, -, -, hrest⟩ := words_eq_cons hcs
    rcases List.mem_append.1 hmem with hmem | hmem
    · exact absurd hmem (hgap hg)
    · rcases List.mem_append.1 hmem with hmem | hmem
      · exact ⟨w, List.mem_cons_self, hmem⟩
      · obtain ⟨v, hv, hcv⟩ := ih hrest hmem
        exact ⟨v, List.mem_cons_of_mem _ hv, hcv⟩

/-! ## Trimming -/

/-- Nothing, or a text that does not start with a blank. -/
def Flush (cs : List Char) : Prop := ∀ c ∈ cs.head?, isBlank c = false

theorem flush_cons {c : Char} (h : isBlank c = false) (cs : List Char) : Flush (c :: cs) := by
  intro d hd
  obtain rfl : c = d := Option.some.inj hd
  exact h

theorem IsWord.flush_append {w : List Char} (hw : IsWord w) (rest : List Char) :
    Flush (w ++ rest) := by
  obtain ⟨c, cs, rfl⟩ := List.exists_cons_of_ne_nil hw.1
  exact flush_cons (hw.2 c List.mem_cons_self) _

theorem IsWord.flush {w : List Char} (hw : IsWord w) : Flush w := by
  rw [← List.append_nil w]
  exact hw.flush_append []

theorem IsWord.reverse {w : List Char} (hw : IsWord w) : IsWord w.reverse := by
  refine ⟨by simp [hw.1], fun c hc => hw.2 c (List.mem_reverse.1 hc)⟩

theorem Gap.reverse {gap : List Char} (h : Gap gap) : Gap gap.reverse :=
  fun c hc => h c (List.mem_reverse.1 hc)

theorem Gap.append {gap gap' : List Char} (h : Gap gap) (h' : Gap gap') : Gap (gap ++ gap') := by
  intro c hc
  rcases List.mem_append.1 hc with hc | hc
  · exact h c hc
  · exact h' c hc

theorem startsBlank_of_gap {gap : List Char} (h : Gap gap) : StartsBlank gap :=
  fun c hc => h c (List.mem_of_mem_head? hc)

theorem trimStart_eq_iff {cs rest : List Char} :
    trimStart cs = rest ↔ Flush rest ∧ ∃ gap, Gap gap ∧ cs = gap ++ rest := by
  constructor
  · rintro rfl
    refine ⟨fun c hc => ?_, cs.takeWhile isBlank, List.all_eq_true.1 List.all_takeWhile, ?_⟩
    · have hnot := List.head?_dropWhile_not isBlank cs
      rw [show (cs.dropWhile isBlank).head? = some c from hc] at hnot
      simpa using hnot
    · exact List.takeWhile_append_dropWhile.symm
  · rintro ⟨hrest, gap, hgap, rfl⟩
    rw [trimStart, List.dropWhile_append_of_pos hgap]
    cases rest with
    | nil => rfl
    | cons c rest => exact List.dropWhile_cons_of_neg (by simp [hrest c rfl])

/-- A trimmed text has gaps around it taken off, and no blank at its ends. -/
theorem trim_eq_iff {cs mid : List Char} : trim cs = mid ↔ Flush mid ∧ Flush mid.reverse ∧
    ∃ gap gap', Gap gap ∧ Gap gap' ∧ cs = gap ++ (mid ++ gap') := by
  have htrim : trim cs = (trimStart (trimStart cs).reverse).reverse := rfl
  rw [htrim]
  constructor
  · rintro rfl
    obtain ⟨hfront, gap, hgap, hcs⟩ := trimStart_eq_iff.1 (rfl : trimStart cs = _)
    generalize trimStart cs = tail at *
    obtain ⟨hback, gap', hgap', htail⟩ := trimStart_eq_iff.1 (rfl : trimStart tail.reverse = _)
    generalize trimStart tail.reverse = mid at *
    have htail' : tail = mid.reverse ++ gap'.reverse := by
      rw [← List.reverse_append, ← htail, List.reverse_reverse]
    refine ⟨fun c hc => hfront c ?_, by rwa [List.reverse_reverse], gap, gap'.reverse, hgap,
      hgap'.reverse, by rw [hcs, htail']⟩
    rw [htail', List.head?_append, Option.mem_def.1 hc]
    rfl
  · rintro ⟨hfront, hback, gap, gap', hgap, hgap', rfl⟩
    cases mid with
    | nil =>
      have hnone : trimStart (gap ++ ([] ++ gap')) = [] :=
        trimStart_eq_iff.2 ⟨fun c hc => absurd hc (by simp), _, hgap.append hgap', by simp⟩
      rw [hnone]
      rfl
    | cons c mid =>
      have hstart : trimStart (gap ++ (c :: mid ++ gap')) = c :: mid ++ gap' :=
        trimStart_eq_iff.2 ⟨flush_cons (hfront c rfl) _, gap, hgap, rfl⟩
      have hend : trimStart (c :: mid ++ gap').reverse = (c :: mid).reverse :=
        trimStart_eq_iff.2 ⟨hback, gap'.reverse, hgap'.reverse, List.reverse_append⟩
      rw [hstart, hend, List.reverse_reverse]

theorem mem_trim {c : Char} {cs : List Char} (h : c ∈ cs) (hc : isBlank c = false) :
    c ∈ trim cs := by
  obtain ⟨-, -, gap, gap', hgap, hgap', hcs⟩ := trim_eq_iff.1 (rfl : trim cs = _)
  have hother : ∀ {gap : List Char}, Gap gap → c ∉ gap := fun hgap hmem => by
    rw [hgap c hmem] at hc
    exact absurd hc (by decide)
  rw [hcs, List.mem_append, List.mem_append] at h
  exact (h.resolve_left (hother hgap)).resolve_right (hother hgap')

end SemverRange.Text
