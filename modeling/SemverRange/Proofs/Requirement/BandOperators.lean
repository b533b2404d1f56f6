import SemverRange.Proofs.Requirement.SingleComparison

/-!
# The band operators keep numbers fixed

The operators `=`, `~` and `^` ask the same of a version (`Version.KeepsTo`): it is not below the
partial version, it has the first few of the fixed numbers, and if it is a pre-release that is not
included, the partial version is itself a pre-release of the same triple. They differ in how many
numbers they ask for: all of them, those among major and minor, and those up to the left-most that
is not zero. An `=` with a version that is written out in full moreover asks for its precedence.

So a tilde and an `=` differ only for versions that are written out in full.

Main result: `Requirement.accepts_band_operators`.
-/

namespace SemverRange

/-- `v` is not below `p`, has its first `width` numbers, and is not a pre-release unless those are
included or `p` is a pre-release of the same triple. -/
structure Version.KeepsTo (v : Version) (p : Partial) (width : Nat) (includePrerelease : Bool) :
    Prop where
  notBelow : v.against p ≠ .lt
  agrees : v.Agrees p width
  optedIn : v.Included includePrerelease ∨ p.Names v.toTriple

theorem Version.keepsTo_iff {v : Version} {p : Partial} {width : Nat} {flag : Bool} :
    v.KeepsTo p width flag ↔
      (v.against p ≠ .lt ∧ v.Agrees p width) ∧ (v.Included flag ∨ p.Names v.toTriple) := by
  constructor
  · intro h
    exact ⟨⟨h.notBelow, h.agrees⟩, h.optedIn⟩
  · intro h
    exact ⟨h.1.1, h.1.2, h.2⟩

/-! ## Being equal to a partial version -/

namespace Partial

variable {p : Partial} {v : Version}

theorem against_eq_eq_iff_agrees (hs : p.Shape) (hexact : p.isExact = false) :
    v.against p = .eq ↔ v.Agrees p p.fixed.length := by
  cases hmajor : isWildcard p.major with
  | true => simp [against_any hmajor, Version.Agrees, fixed_any hmajor]
  | false =>
    rcases hs.major_or_minor hexact hmajor with ⟨hminor, -⟩ | ⟨hminor, hpatch⟩
    · simp [against_major hmajor hminor, Version.Agrees, fixed_major hmajor hminor,
        Triple.numbers]
    · simp [against_minor hmajor hminor hpatch, Version.Agrees,
        fixed_minor hmajor hminor hpatch, Triple.numbers]

theorem fixed_length_le_two (hs : p.Shape) (hexact : p.isExact = false) :
    p.fixed.length ≤ 2 := by
  cases hmajor : isWildcard p.major with
  | true => simp [fixed_any hmajor]
  | false =>
    rcases hs.major_or_minor hexact hmajor with ⟨hminor, -⟩ | ⟨hminor, hpatch⟩
    · simp [fixed_major hmajor hminor]
    · simp [fixed_minor hmajor hminor hpatch]

theorem agrees_of_against_eq_eq (hs : p.Shape) (h : v.against p = .eq) :
    v.Agrees p p.fixed.length := by
  cases hexact : p.isExact with
  | false => exact (against_eq_eq_iff_agrees hs hexact).1 h
  | true =>
    rw [against_exact hexact, Version.precedence, Ordering.then_eq_eq,
      Triple.compare_eq_eq_iff] at h
    exact agrees_of_toTriple_eq hs h.1 (Nat.le_refl _)

/-- To be equal is to be not below, with all fixed numbers, and of the same precedence as a version
that is written out in full. -/
theorem holds_eq_iff (hs : p.Shape) : Comparator.eq.Holds p v ↔
    (v.against p ≠ .lt ∧ v.Agrees p p.fixed.length) ∧
      (p.isExact = true → v.precedence p.bottom = .eq) := by
  rw [Comparator.Holds]
  cases hexact : p.isExact with
  | false =>
    have hagrees : v.against p = .eq ↔ v.Agrees p p.fixed.length :=
      against_eq_eq_iff_agrees hs hexact
    have hlow : v.against p = .eq → v.against p ≠ .lt := fun h hlt => by
      rw [h] at hlt
      exact absurd hlt (by decide)
    simpa [← hagrees] using hlow
  | true =>
    have hagrees := agrees_of_against_eq_eq (v := v) hs
    rw [against_exact hexact] at hagrees ⊢
    constructor
    · intro h
      exact ⟨⟨by simp [h], hagrees h⟩, fun _ => h⟩
    · intro h
      exact h.2 rfl

end Partial

/-! ## Requirements -/

namespace Requirement

/-- **The band operators accept the versions that keep to their numbers.** If one comparison with a
partial version can be built, so can `=`, `~` and `^` with it. An `=` asks for all fixed numbers,
and for the precedence of a version that is written out in full; a tilde asks for those among major
and minor, a caret for those up to the left-most that is not zero. So `~` and `=` accept the same
versions unless the version is written out in full. -/
theorem accepts_band_operators {text : String} {p : Partial}
    (hp : Partial.read? text.toList = some p) {k : Comparator} {flag : Bool} {r : Requirement}
    (h : build (String.ofList k.symbol ++ text) flag = .ok r) :
    ∃ eq tilde caret, build ("=" ++ text) flag = .ok eq ∧ build ("~" ++ text) flag = .ok tilde ∧
      build ("^" ++ text) flag = .ok caret ∧
      ∀ v : Version, v.IsNatural →
        (eq.accepts v = true ↔ v.KeepsTo p p.fixed.length flag ∧
          (p.isExact = true → v.precedence p.bottom = .eq)) ∧
        (tilde.accepts v = true ↔ v.KeepsTo p (min p.fixed.length 2) flag) ∧
        (caret.accepts v = true ↔ v.KeepsTo p p.caretWidth flag) ∧
        (p.isExact = false → tilde.accepts v = eq.accepts v) := by
  have hfaults := (exists_build_symbol_iff hp k flag).1 ⟨r, h⟩
  obtain ⟨eq, heq⟩ := (exists_build_symbol_iff hp .eq flag).2 hfaults
  obtain ⟨tilde, htilde⟩ := (exists_build_symbol_iff hp .tilde flag).2 hfaults
  obtain ⟨caret, hcaret⟩ := (exists_build_symbol_iff hp .caret flag).2 hfaults
  have hs := Partial.shape_of_faults_eq_nil hfaults
  -- none of the three intervals starts at the lowest release
  have hstart : ∀ c : Comparator, c ≠ .lt → c ≠ .le → ¬ c.StartsAtZero p :=
    fun c hlt hle hc => hc.1.elim hlt hle
  refine ⟨eq, tilde, caret, heq, htilde, hcaret, fun v hv => ?_⟩
  have hEq : eq.accepts v = true ↔ v.KeepsTo p p.fixed.length flag ∧
      (p.isExact = true → v.precedence p.bottom = .eq) := by
    rw [accepts_comparison_iff hp heq hv, Partial.holds_eq_iff hs, Version.keepsTo_iff]
    simp only [hstart .eq (by decide) (by decide), false_implies, and_true]
    exact and_right_comm
  have hTilde : tilde.accepts v = true ↔ v.KeepsTo p (min p.fixed.length 2) flag := by
    rw [accepts_comparison_iff hp htilde hv, Version.keepsTo_iff]
    simp only [hstart .tilde (by decide) (by decide), false_implies, and_true]
    rfl
  have hCaret : caret.accepts v = true ↔ v.KeepsTo p p.caretWidth flag := by
    rw [accepts_comparison_iff hp hcaret hv, Version.keepsTo_iff]
    simp only [hstart .caret (by decide) (by decide), false_implies, and_true]
    rfl
  refine ⟨hEq, hTilde, hCaret, fun hexact => ?_⟩
  have hwidth : min p.fixed.length 2 = p.fixed.length :=
    Nat.min_eq_left (Partial.fixed_length_le_two hs hexact)
  rw [Bool.eq_iff_iff, hTilde, hEq, hwidth, hexact]
  simp

theorem accepts_band_operators_prerelease : ∃ eq tilde caret,
    build ("=" ++ "0.2.3-beta") false = .ok eq ∧ build ("~" ++ "0.2.3-beta") false = .ok tilde ∧
    build ("^" ++ "0.2.3-beta") false = .ok caret ∧
    (tilde.accepts ⟨⟨0, 2, 3⟩, ["rc"], []⟩ = true ↔
      (⟨⟨0, 2, 3⟩, ["rc"], []⟩ : Version).KeepsTo ⟨"0", some "2", some "3", ["beta"], []⟩ 2 false) ∧
    tilde.accepts ⟨⟨0, 2, 3⟩, ["rc"], []⟩ = true ∧ eq.accepts ⟨⟨0, 2, 3⟩, ["rc"], []⟩ = false := by
  have hread : Partial.read? "0.2.3-beta".toList =
      some ⟨"0", some "2", some "3", ["beta"], []⟩ := by
    decide +kernel
  obtain ⟨r, hr, haccepts⟩ : ∃ r, build (String.ofList Comparator.tilde.symbol ++ "0.2.3-beta")
      false = .ok r ∧ r.accepts ⟨⟨0, 2, 3⟩, ["rc"], []⟩ = true :=
    exists_build_of_accepts (by decide +kernel)
  obtain ⟨eq, tilde, caret, heq, htilde, hcaret, h⟩ := accepts_band_operators hread hr
  obtain ⟨hEq, hTilde, -, -⟩ := h ⟨⟨0, 2, 3⟩, ["rc"], []⟩ ⟨by decide, by decide, by decide⟩
  obtain rfl : r = tilde := Except.ok.inj (hr.symm.trans htilde)
  refine ⟨eq, r, caret, heq, htilde, hcaret, hTilde, haccepts, ?_⟩
  rw [← Bool.not_eq_true, hEq]
  intro heqs
  exact absurd (heqs.2 (by decide)) (by decide +kernel)

end Requirement

end SemverRange
