import SemverRange.Version.Written
import SemverRange.Proofs.Text.Words

/-!
# The written form is read back

A reading of a text has pieces without any of the separators `.`, `-` and `+` in its core, and
identifiers in its qualifiers (`Written.WellFormed`). Such pieces and their text determine each
other.

**Cutting.** The part before the first mark does not hold it, and mark and rest are what follows
(`marked`). **Qualifiers.** The identifiers of a qualifier are those whose qualifier text is the
cut-off part.

Main result: `Written.read?_eq_some_iff`.
-/

namespace SemverRange.Written

/-- The core has pieces, none with a separator in it, and all identifiers are well formed. -/
structure WellFormed (w : Written) : Prop where
  core_ne_nil : w.core ≠ []
  core : ∀ piece ∈ w.core, '.' ∉ piece ∧ '-' ∉ piece ∧ '+' ∉ piece
  prerelease : ∀ id ∈ w.prerelease, isIdentifier id = true
  build : ∀ id ∈ w.build, isIdentifier id = true

/-! ## Cutting at a mark -/

/-- A mark and the part after it, or nothing. -/
def marked (mark : Char) : Option (List Char) → List Char
  | none => []
  | some cs => mark :: cs

theorem cut_of_not_mem {mark : Char} {cs : List Char} (h : mark ∉ cs) :
    cut mark cs = (cs, none) := by
  have hall : ∀ c ∈ cs, (c != mark) = true := fun c hc => by
    simp only [bne_iff_ne]; rintro rfl; exact h hc
  have htake : cs.takeWhile (· != mark) = cs := by
    have happend : (cs ++ []).takeWhile (· != mark) = cs ++ [] :=
      List.takeWhile_append_of_pos hall
    rwa [List.append_nil] at happend
  have hdrop : cs.dropWhile (· != mark) = [] := by
    have happend : (cs ++ []).dropWhile (· != mark) = [] := List.dropWhile_append_of_pos hall
    rwa [List.append_nil] at happend
  simp [cut, htake, hdrop]

theorem cut_eq_iff {mark : Char} {cs front : List Char} {rest : Option (List Char)} :
    cut mark cs = (front, rest) ↔ mark ∉ front ∧ cs = front ++ marked mark rest := by
  constructor
  · intro h
    have hsplit := List.takeWhile_append_dropWhile (p := (· != mark)) (l := cs)
    simp only [cut, Prod.mk.injEq] at h
    obtain ⟨rfl, hrest⟩ := h
    refine ⟨fun hm => ?_, ?_⟩
    · have := List.all_eq_true.1 (List.all_takeWhile (p := (· != mark)) (l := cs)) mark hm
      simp at this
    · rw [← hrest]
      cases hd : cs.dropWhile (· != mark) with
      | nil => rw [hd] at hsplit; simpa [marked] using hsplit.symm
      | cons c tail =>
        have hc : c = mark := by
          have := List.head_dropWhile_not (p := (· != mark)) (l := cs) (by simp [hd])
          simpa [hd] using this
        rw [hd, hc] at hsplit
        exact hsplit.symm
  · rintro ⟨hm, rfl⟩
    cases rest with
    | none => simpa [marked] using cut_of_not_mem hm
    | some tail => exact cut_append hm tail

/-! ## Identifiers -/

theorem toNat_of_isIdentifierChar {c : Char} (h : isIdentifierChar c = true) :
    45 ≤ c.toNat ∧ c.toNat ≤ 122 := by
  change (((decide (65 ≤ c.val ∧ c.val ≤ 90) || decide (97 ≤ c.val) && decide (c.val ≤ 122)) ||
    decide (48 ≤ c.val) && decide (c.val ≤ 57)) || c == '-') = true at h
  simp only [Bool.or_eq_true, Bool.and_eq_true, decide_eq_true_eq, beq_iff_eq,
    UInt32.le_iff_toNat_le] at h
  rcases h with h | rfl
  · change (65 ≤ c.toNat ∧ c.toNat ≤ 90 ∨ 97 ≤ c.toNat ∧ c.toNat ≤ 122) ∨
      48 ≤ c.toNat ∧ c.toNat ≤ 57 at h
    omega
  · decide

theorem isIdentifierChar_of_isBlank {c : Char} (h : Text.isBlank c = true) :
    isIdentifierChar c = false := by
  rw [← Bool.not_eq_true]
  intro hid
  have hrange := toNat_of_isIdentifierChar hid
  simp only [Text.isBlank, Bool.or_eq_true, Bool.and_eq_true, decide_eq_true_eq, beq_iff_eq] at h
  omega

theorem not_mem_of_isIdentifier {id : List Char} (h : isIdentifier id = true) :
    '.' ∉ id ∧ '+' ∉ id := by
  simp only [isIdentifier, Bool.and_eq_true, List.all_eq_true] at h
  exact ⟨fun hc => absurd (h.2 _ hc) (by decide), fun hc => absurd (h.2 _ hc) (by decide)⟩

theorem splitOn_dotted {pieces : List (List Char)} (hne : pieces ≠ [])
    (h : ∀ piece ∈ pieces, '.' ∉ piece) : (dotted pieces).splitOn '.' = pieces :=
  List.splitOn_intercalate '.' h hne

theorem not_mem_dotted {c : Char} {pieces : List (List Char)} (hc : c ≠ '.')
    (h : ∀ piece ∈ pieces, c ∉ piece) : c ∉ dotted pieces := by
  induction pieces with
  | nil => simp [dotted]
  | cons piece pieces ih =>
    have hpiece := h piece List.mem_cons_self
    have hpieces := ih fun q hq => h q (List.mem_cons_of_mem _ hq)
    cases pieces with
    | nil => simpa [dotted] using hpiece
    | cons q qs =>
      unfold dotted at hpieces ⊢
      rw [List.intercalate_cons_cons]
      simp [hpiece, hpieces, hc]

/-- The identifiers that are read from a cut-off part are those that write it. -/
theorem identifiers?_eq_some_iff (mark : Char) {rest : Option (List Char)}
    {ids : List (List Char)} :
    identifiers? rest = some ids ↔
      (∀ id ∈ ids, isIdentifier id = true) ∧ marked mark rest = qualifier mark ids := by
  cases rest with
  | none =>
    cases ids with
    | nil => simp [identifiers?, marked, qualifier]
    | cons id ids => simp [identifiers?, marked, qualifier]
  | some cs =>
    simp only [identifiers?, marked]
    constructor
    · intro h
      split at h
      · rename_i hall
        obtain rfl := Option.some.inj h
        refine ⟨List.all_eq_true.1 hall, ?_⟩
        rw [qualifier, if_neg (by simp), dotted, List.intercalate_splitOn]
      · exact absurd h (by simp)
    · rintro ⟨hids, hcs⟩
      cases ids with
      | nil => simp [qualifier] at hcs
      | cons id ids =>
        obtain rfl : cs = dotted (id :: ids) := by simpa [qualifier] using hcs
        rw [splitOn_dotted (by simp) fun i hi => (not_mem_of_isIdentifier (hids i hi)).1,
          if_pos (List.all_eq_true.2 hids)]

/-- The cut-off part that a qualifier leaves. -/
theorem exists_marked (mark : Char) (ids : List (List Char)) :
    ∃ rest, marked mark rest = qualifier mark ids := by
  cases ids with
  | nil => exact ⟨none, rfl⟩
  | cons id ids => exact ⟨some (dotted (id :: ids)), rfl⟩

theorem not_mem_qualifier {c mark : Char} {ids : List (List Char)} (hmark : c ≠ mark)
    (hc : c ≠ '.') (h : ∀ id ∈ ids, c ∉ id) : c ∉ qualifier mark ids := by
  cases ids with
  | nil => simp [qualifier]
  | cons id ids =>
    have hids : c ∉ dotted (id :: ids) := not_mem_dotted hc h
    simpa [qualifier, hmark] using hids

/-! ## Characters -/

/-- A character other than the marks is in the text only if it is in a piece. -/
theorem not_mem_text {w : Written} {c : Char} (hdot : c ≠ '.') (hminus : c ≠ '-') (hplus : c ≠ '+')
    (hcore : ∀ piece ∈ w.core, c ∉ piece) (hprerelease : ∀ id ∈ w.prerelease, c ∉ id)
    (hbuild : ∀ id ∈ w.build, c ∉ id) : c ∉ w.text := by
  have hfront : c ∉ dotted w.core := not_mem_dotted hdot hcore
  have hmiddle : c ∉ qualifier '-' w.prerelease := not_mem_qualifier hminus hdot hprerelease
  have hback : c ∉ qualifier '+' w.build := not_mem_qualifier hplus hdot hbuild
  simp [text, hfront, hmiddle, hback]

theorem head?_text {w : Written} {piece : List Char} {pieces : List (List Char)}
    (h : w.core = piece :: pieces) (hne : piece ≠ []) : w.text.head? = piece.head? := by
  obtain ⟨c, cs, rfl⟩ := List.exists_cons_of_ne_nil hne
  rw [text, h, dotted]
  cases pieces with
  | nil => rfl
  | cons second others =>
    rw [List.intercalate_cons_cons]
    rfl

/-! ## The mark in front -/

theorem eq_or_eq_of_dropMark {mark : Char} {cs rest : List Char} (h : dropMark mark cs = rest) :
    cs = rest ∨ cs = mark :: rest := by
  cases cs with
  | nil => exact .inl h
  | cons c cs =>
    by_cases hc : c = mark
    · rw [dropMark, if_pos hc] at h
      exact .inr (by rw [hc, h])
    · rw [dropMark, if_neg hc] at h
      exact .inl h

/-- A mark is dropped if there was one; a text that starts with it was not left. -/
theorem dropMark_eq_iff {mark : Char} {cs rest : List Char} (h : rest.head? ≠ some mark) :
    dropMark mark cs = rest ↔ cs = rest ∨ cs = mark :: rest := by
  constructor
  · exact eq_or_eq_of_dropMark
  · rintro (rfl | rfl)
    · cases cs with
      | nil => rfl
      | cons c cs =>
        rw [List.head?_cons, ne_eq, Option.some.injEq] at h
        rw [dropMark, if_neg h]
    · rw [dropMark, if_pos rfl]

/-! ## Reading and writing -/

theorem read?_text {w : Written} (hw : w.WellFormed) : read? w.text = some w := by
  obtain ⟨build, hbuild⟩ := exists_marked '+' w.build
  obtain ⟨prerelease, hprerelease⟩ := exists_marked '-' w.prerelease
  have hminus : '-' ∉ dotted w.core := not_mem_dotted (by decide) fun p hp => (hw.core p hp).2.1
  have hplus : '+' ∉ dotted w.core := not_mem_dotted (by decide) fun p hp => (hw.core p hp).2.2
  have hfront : cut '+' w.text = (dotted w.core ++ qualifier '-' w.prerelease, build) := by
    refine cut_eq_iff.2 ⟨?_, by rw [text, hbuild]⟩
    have hpre : '+' ∉ qualifier '-' w.prerelease := not_mem_qualifier (by decide) (by decide)
      fun id hid => (not_mem_of_isIdentifier (hw.prerelease id hid)).2
    simp [hplus, hpre]
  have hcore : cut '-' (dotted w.core ++ qualifier '-' w.prerelease) =
      (dotted w.core, prerelease) := cut_eq_iff.2 ⟨hminus, by rw [hprerelease]⟩
  have hpre := (identifiers?_eq_some_iff '-').2 ⟨hw.prerelease, hprerelease⟩
  have hbld := (identifiers?_eq_some_iff '+').2 ⟨hw.build, hbuild⟩
  simp only [read?, hfront, hcore, hpre, hbld]
  rw [splitOn_dotted hw.core_ne_nil fun p hp => (hw.core p hp).1]

theorem wellFormed_of_read? {cs : List Char} {w : Written} (h : read? cs = some w) :
    w.WellFormed ∧ w.text = cs := by
  rcases hfront : cut '+' cs with ⟨front, build⟩
  rcases hcore : cut '-' front with ⟨core, prerelease⟩
  simp only [read?, hfront, hcore] at h
  obtain ⟨hplus, rfl⟩ := cut_eq_iff.1 hfront
  obtain ⟨hminus, rfl⟩ := cut_eq_iff.1 hcore
  split at h
  · rename_i pre bld hpre hbld
    obtain rfl := Option.some.inj h
    obtain ⟨hpreIds, hpreText⟩ := (identifiers?_eq_some_iff '-').1 hpre
    obtain ⟨hbldIds, hbldText⟩ := (identifiers?_eq_some_iff '+').1 hbld
    refine ⟨⟨List.splitOn_ne_nil _ _, fun piece hp => ⟨Text.not_mem_of_mem_splitOn hp, ?_, ?_⟩,
      hpreIds, hbldIds⟩, ?_⟩
    · exact fun hc => hminus (Text.mem_of_mem_splitOn hp hc)
    · exact fun hc => hplus (List.mem_append_left _ (Text.mem_of_mem_splitOn hp hc))
    · simp only [text, dotted, List.intercalate_splitOn, hpreText, hbldText]
  · exact absurd h (by simp)

/-- **The reading of a text is the one that writes it.** -/
theorem read?_eq_some_iff {cs : List Char} {w : Written} :
    read? cs = some w ↔ w.WellFormed ∧ w.text = cs := by
  constructor
  · exact wellFormed_of_read?
  · rintro ⟨hw, rfl⟩
    exact read?_text hw

end SemverRange.Written
