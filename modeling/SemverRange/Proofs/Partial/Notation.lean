import SemverRange.Partial.Basic
import SemverRange.Proofs.Numeral
import SemverRange.Proofs.Version.Notation

/-!
# How partial versions are spelled

**Spelling** (`Partial.Spells`). A text spells a partial version when it is, after an optional
`v`, one to three components separated by points, then `-` and pre-release identifiers if there
are any, then `+` and build identifiers if there are any. A component is `0`, a number whose first
digit is from `1` to `9`, or a wildcard `x`, `X` or `*`; identifiers are non-empty runs of ASCII
letters, digits and hyphens.

**Characters.** Only digits, the characters of identifiers, and `*`, `.` and `+` occur in such a
text, and it starts with a `v` or a component.

Main result: `Partial.read?_eq_some_iff`. A text is read as the one partial version it spells.
-/

namespace SemverRange.Partial

/-! ## Components -/

/-- `0`, a number whose first digit is from `1` to `9`, or a wildcard. -/
inductive ComponentText : List Char → Prop
  | zero : ComponentText ['0']
  | number {d : Char} {ds : List Char} : '1' ≤ d → d ≤ '9' →
      (∀ c ∈ ds, Text.isDigit c = true) → ComponentText (d :: ds)
  | wildcard {c : Char} : c = 'x' ∨ c = 'X' ∨ c = '*' → ComponentText [c]

theorem isComponent_iff {cs : List Char} : isComponent cs = true ↔ ComponentText cs := by
  have hrange : ∀ d : Char, ('1' ≤ d ∧ d ≤ '9') ↔ (49 ≤ d.toNat ∧ d.toNat ≤ 57) := fun d => by
    simp only [Char.le_def, UInt32.le_iff_toNat_le]
    rfl
  constructor
  · intro h
    cases cs with
    | nil => simp [isComponent] at h
    | cons c ds =>
      simp only [isComponent, Bool.or_eq_true, Bool.and_eq_true, List.isEmpty_iff,
        decide_eq_true_eq, List.all_eq_true] at h
      rcases h with ⟨rfl, hc⟩ | ⟨hd, hds⟩
      · simp only [List.contains_eq_mem, List.mem_cons, List.not_mem_nil, or_false,
          decide_eq_true_eq] at hc
        rcases hc with rfl | hc
        · exact .zero
        · exact .wildcard hc
      · obtain ⟨h1, h9⟩ := (hrange c).2 hd
        exact .number h1 h9 hds
  · intro h
    cases h with
    | zero => rfl
    | number h1 h9 hds =>
      obtain ⟨h49, h57⟩ := (hrange _).1 ⟨h1, h9⟩
      simp only [isComponent, Bool.or_eq_true, Bool.and_eq_true, decide_eq_true_eq,
        List.all_eq_true]
      exact .inr ⟨⟨h49, h57⟩, hds⟩
    | wildcard hc => rcases hc with rfl | rfl | rfl <;> rfl

theorem isDigit_of_le {d : Char} (h1 : '1' ≤ d) (h9 : d ≤ '9') : Text.isDigit d = true := by
  simp only [Char.le_def, UInt32.le_iff_toNat_le] at h1 h9
  have h : 48 ≤ d.toNat ∧ d.toNat ≤ 57 := by
    refine ⟨Nat.le_trans (by decide) h1, h9⟩
  rw [Text.isDigit, Text.digitValue?_of_ascii h]
  rfl

theorem ComponentText.mem {cs : List Char} (h : ComponentText cs) :
    ∀ c ∈ cs, Text.isDigit c = true ∨ c = 'x' ∨ c = 'X' ∨ c = '*' := by
  intro c hc
  cases h with
  | zero =>
    rw [List.mem_singleton] at hc
    exact .inl (hc ▸ by decide)
  | number h1 h9 hds =>
    rcases List.mem_cons.1 hc with rfl | hc
    · exact .inl (isDigit_of_le h1 h9)
    · exact .inl (hds c hc)
  | wildcard hw =>
    rw [List.mem_singleton] at hc
    exact .inr (hc ▸ hw)

theorem ComponentText.not_mem {cs : List Char} (h : ComponentText cs) {c : Char}
    (hdigit : Text.isDigit c = false) (hc : ¬ (c = 'x' ∨ c = 'X' ∨ c = '*')) : c ∉ cs := by
  intro hmem
  rcases h.mem c hmem with hd | hw
  · rw [hdigit] at hd
    exact absurd hd (by decide)
  · exact hc hw

theorem ComponentText.ne_nil {cs : List Char} (h : ComponentText cs) : cs ≠ [] := by
  cases h <;> simp

/-! ## Partial versions as texts -/

/-- The components that are given. -/
def components (p : Partial) : List String := p.major :: (p.minor.toList ++ p.patch.toList)

/-- The pieces of the text that spells `p`. -/
def pieces (p : Partial) : Written :=
  ⟨p.components.map (·.toList), p.prerelease.map (·.toList), p.build.map (·.toList)⟩

/-- The partial versions that can be spelled. -/
structure Spellable (p : Partial) : Prop where
  component : ∀ c ∈ p.components, ComponentText c.toList
  patch_eq_none : p.minor = none → p.patch = none
  prerelease : ∀ id ∈ p.prerelease, Written.isIdentifier id.toList = true
  build : ∀ id ∈ p.build, Written.isIdentifier id.toList = true

/-- The text `cs` writes `p`, with or without a `v` in front. -/
def Spells (cs : List Char) (p : Partial) : Prop :=
  p.Spellable ∧ (cs = p.pieces.text ∨ cs = 'v' :: p.pieces.text)

theorem wellFormed_pieces {p : Partial} (hp : p.Spellable) : p.pieces.WellFormed where
  core_ne_nil := by simp [pieces, components]
  core := by
    intro piece hpiece
    obtain ⟨c, hc, rfl⟩ := List.mem_map.1 hpiece
    have htext := hp.component c hc
    exact ⟨htext.not_mem (by decide) (by decide), htext.not_mem (by decide) (by decide),
      htext.not_mem (by decide) (by decide)⟩
  prerelease := by
    intro id hid
    obtain ⟨s, hs, rfl⟩ := List.mem_map.1 hid
    exact hp.prerelease s hs
  build := by
    intro id hid
    obtain ⟨s, hs, rfl⟩ := List.mem_map.1 hid
    exact hp.build s hs

theorem ofWritten?_eq_some_iff {w : Written} {p : Partial} :
    ofWritten? w = some p ↔ (∀ piece ∈ w.core, isComponent piece = true) ∧
      (p.minor = none → p.patch = none) ∧ p.pieces = w := by
  constructor
  · intro h
    obtain ⟨core, prerelease, build⟩ := w
    unfold ofWritten? at h
    split at h
    · rename_i hcore
      refine ⟨List.all_eq_true.1 hcore, ?_⟩
      match core, h with
      | [major], h =>
        obtain rfl := Option.some.inj h
        simp [pieces, components, Function.comp_def]
      | [major, minor], h =>
        obtain rfl := Option.some.inj h
        simp [pieces, components, Function.comp_def]
      | [major, minor, patch], h =>
        obtain rfl := Option.some.inj h
        simp [pieces, components, Function.comp_def]
    · exact absurd h (by simp)
  · rintro ⟨hcore, hpatch, rfl⟩
    obtain ⟨major, minor, patch, prerelease, build⟩ := p
    unfold ofWritten?
    rw [if_pos (List.all_eq_true.2 hcore)]
    cases minor with
    | none =>
      obtain rfl : patch = none := hpatch rfl
      simp [pieces, components, Function.comp_def]
    | some minor => cases patch <;> simp [pieces, components, Function.comp_def]

/-! ## The mark in front -/

/-- A spelled text starts with the first character of its major component. -/
theorem exists_text_pieces {p : Partial} (hp : p.Spellable) :
    ∃ c cs, p.pieces.text = c :: cs ∧ (Text.isDigit c = true ∨ c = 'x' ∨ c = 'X' ∨ c = '*') := by
  have hmajor := hp.component p.major List.mem_cons_self
  obtain ⟨c, cs, hcs⟩ := List.exists_cons_of_ne_nil hmajor.ne_nil
  have hhead : p.pieces.text.head? = some c := by
    rw [Written.head?_text rfl hmajor.ne_nil, hcs, List.head?_cons]
  obtain ⟨rest, hrest⟩ := List.head?_eq_some_iff.1 hhead
  exact ⟨c, rest, hrest, hmajor.mem c (by simp [hcs])⟩

/-- Dropping the mark of a text that spells a partial version leaves its pieces. -/
theorem dropMark_eq_text_iff {p : Partial} (hp : p.Spellable) {cs : List Char} :
    Written.dropMark 'v' cs = p.pieces.text ↔ p.Spells cs := by
  obtain ⟨c, ds, htext, hc⟩ := exists_text_pieces hp
  have hv : p.pieces.text.head? ≠ some 'v' := by
    rw [htext, List.head?_cons, ne_eq, Option.some.injEq]
    rintro rfl
    revert hc
    decide
  rw [Written.dropMark_eq_iff hv]
  exact ⟨fun h => ⟨hp, h⟩, fun h => h.2⟩

/-- **A text is read as the partial version that it spells.** -/
theorem read?_eq_some_iff {cs : List Char} {p : Partial} : read? cs = some p ↔ Spells cs p := by
  constructor
  · intro h
    obtain ⟨w, hread, hw⟩ := Option.bind_eq_some_iff.1 h
    obtain ⟨hwell, htext⟩ := Written.read?_eq_some_iff.1 hread
    obtain ⟨hcore, hpatch, rfl⟩ := ofWritten?_eq_some_iff.1 hw
    refine (dropMark_eq_text_iff ⟨fun c hc => ?_, hpatch, fun id hid => ?_, fun id hid => ?_⟩).1
      htext.symm
    · exact isComponent_iff.1 (hcore _ (List.mem_map_of_mem hc))
    · exact hwell.prerelease _ (List.mem_map_of_mem hid)
    · exact hwell.build _ (List.mem_map_of_mem hid)
  · intro h
    have hp := h.1
    have hread := Written.read?_eq_some_iff.2 ⟨wellFormed_pieces hp, rfl⟩
    rw [read?, (dropMark_eq_text_iff hp).2 h, hread, Option.bind_some]
    refine ofWritten?_eq_some_iff.2 ⟨fun piece hpiece => ?_, hp.patch_eq_none, rfl⟩
    obtain ⟨c, hc, rfl⟩ := List.mem_map.1 hpiece
    exact isComponent_iff.2 (hp.component c hc)

/-! ## Characters -/

theorem isIdentifierChar_of_isIdentifier {id : List Char} (h : Written.isIdentifier id = true) :
    ∀ c ∈ id, Written.isIdentifierChar c = true := by
  simp only [Written.isIdentifier, Bool.and_eq_true, List.all_eq_true] at h
  exact h.2

/-- What a spelling is made of: digits, characters of identifiers, `*`, `.` and `+`. -/
theorem Spells.not_mem {cs : List Char} {p : Partial} (h : Spells cs p) {c : Char}
    (hdigit : Text.isDigit c = false) (hid : Written.isIdentifierChar c = false)
    (hmark : c ∉ ['*', '.', '+']) : c ∉ cs := by
  obtain ⟨hp, htext⟩ := h
  simp only [List.mem_cons, List.not_mem_nil, or_false, not_or] at hmark
  obtain ⟨hstar, hdot, hplus⟩ := hmark
  have hne : ∀ d, Written.isIdentifierChar d = true → c ≠ d := by
    rintro d hd rfl
    rw [hid] at hd
    exact absurd hd (by decide)
  have hids : ∀ ids : List String, (∀ id ∈ ids, Written.isIdentifier id.toList = true) →
      ∀ id ∈ ids.map (·.toList), c ∉ id := by
    intro ids h id hmem hc
    obtain ⟨s, hs, rfl⟩ := List.mem_map.1 hmem
    exact hne c (isIdentifierChar_of_isIdentifier (h s hs) c hc) rfl
  have htext' : c ∉ p.pieces.text := by
    refine Written.not_mem_text hdot (hne '-' (by decide)) hplus (fun piece hpiece => ?_)
      (hids _ hp.prerelease) (hids _ hp.build)
    obtain ⟨s, hs, rfl⟩ := List.mem_map.1 hpiece
    refine (hp.component s hs).not_mem hdigit ?_
    rintro (rfl | rfl | rfl)
    · exact hne 'x' (by decide) rfl
    · exact hne 'X' (by decide) rfl
    · exact hstar rfl
  rcases htext with rfl | rfl
  · exact htext'
  · exact List.not_mem_cons_of_ne_of_not_mem (hne 'v' (by decide)) htext'

theorem isWord_of_not_mem {cs : List Char} (hne : cs ≠ [])
    (h : ∀ c, Text.isDigit c = false → Written.isIdentifierChar c = false →
      c ∉ ['*', '.', '+'] → c ∉ cs) : Text.IsWord cs := by
  refine ⟨hne, fun c hc => ?_⟩
  rw [← Bool.not_eq_true]
  intro hblank
  have hdigit : Text.isDigit c = false := by
    rw [← Bool.not_eq_true]
    intro hdigit
    rw [Text.isBlank_of_isDigit hdigit] at hblank
    exact absurd hblank (by decide)
  have hmark : c ∉ ['*', '.', '+'] := by
    intro hmem
    have hall : ['*', '.', '+'].all (!Text.isBlank ·) = true := by decide
    have hnot := List.all_eq_true.1 hall c hmem
    rw [hblank] at hnot
    exact absurd hnot (by decide)
  exact h c hdigit (Written.isIdentifierChar_of_isBlank hblank) hmark hc

theorem Spells.ne_nil {cs : List Char} {p : Partial} (h : Spells cs p) : cs ≠ [] := by
  obtain ⟨hp, htext⟩ := h
  obtain ⟨c, ds, hpieces, -⟩ := exists_text_pieces hp
  rw [hpieces] at htext
  rcases htext with rfl | rfl
  · simp
  · simp

end SemverRange.Partial
