import SemverRange.Proofs.Requirement.SingleComparison

/-!
# How the comparators tile the versions

The readings of `<`, `=` and `>` ask for the three outcomes of one comparison, so one of them
accepts, and `<=` and `>=` accept what two of them accept.

**The bottom.** The intervals of `<` and `<=` start at the lowest release. Below it are its
pre-releases, which the other three treat like any version: these are on no tile of `<`, and `<=`
has them only without a major.

Main result: `Requirement.accepts_tiling`.
-/

namespace SemverRange.Requirement

/-- **The comparators tile the versions.** If `=` with a partial version can be built, so can the
other four, and with pre-releases included exactly one of `<`, `=` and `>` accepts a version, `<=`
and `>=` accept what two of the three accept, and `<` and `>=` as well as `>` and `<=` exclude each
other. A pre-release of `0.0.0` is missing from `<` and, unless there is no major, from `<=`. -/
theorem accepts_tiling {text : String} {p : Partial} (hp : Partial.read? text.toList = some p)
    {eq : Requirement} (heq : build ("=" ++ text) true = .ok eq) :
    ∃ lt gt le ge, build ("<" ++ text) true = .ok lt ∧ build (">" ++ text) true = .ok gt ∧
      build ("<=" ++ text) true = .ok le ∧ build (">=" ++ text) true = .ok ge ∧
      ∀ v : Version, v.IsNatural →
        (Partial.isWildcard p.major = true → eq.accepts v = true) ∧
        (ge.accepts v = (gt.accepts v || eq.accepts v)) ∧
        (v.Ordinary true → [lt.accepts v, eq.accepts v, gt.accepts v].count true = 1 ∧
          le.accepts v = (lt.accepts v || eq.accepts v) ∧
          lt.accepts v = (!ge.accepts v) ∧ gt.accepts v = (!le.accepts v)) ∧
        (¬ v.Ordinary true → (gt.accepts v && eq.accepts v) = false ∧ lt.accepts v = false ∧
          le.accepts v = Partial.isWildcard p.major) := by
  have hfaults := (exists_build_symbol_iff hp .eq true).1 ⟨eq, heq⟩
  obtain ⟨lt, hlt⟩ := (exists_build_symbol_iff hp .lt true).2 hfaults
  obtain ⟨gt, hgt⟩ := (exists_build_symbol_iff hp .gt true).2 hfaults
  obtain ⟨le, hle⟩ := (exists_build_symbol_iff hp .le true).2 hfaults
  obtain ⟨ge, hge⟩ := (exists_build_symbol_iff hp .ge true).2 hfaults
  refine ⟨lt, gt, le, ge, hlt, hgt, hle, hge, ?_⟩
  intro v hv
  have hEq := accepts_symbol_iff hp (k := .eq) heq hv
  have hLt := accepts_symbol_iff hp hlt hv
  have hGt := accepts_symbol_iff hp hgt hv
  have hLe := accepts_symbol_iff hp hle hv
  have hGe := accepts_symbol_iff hp hge hv
  simp only [Comparator.Holds, Comparator.StartsAtZero] at hEq hLt hGt hLe hGe
  -- what is accepted depends on the outcome of the comparison and on the two exceptions alone
  cases hmajor : Partial.isWildcard p.major with
  | true =>
    have hagainst : v.against p = .eq := Partial.against_any hmajor
    simp [hmajor, hagainst] at hEq hLt hGt hLe hGe
    simp [hEq, hLt, hGt, hLe, hGe]
  | false =>
    by_cases hordinary : v.Ordinary true <;> cases hagainst : v.against p <;>
      simp [hmajor, hagainst, hordinary] at hEq hLt hGt hLe hGe <;>
      simp [hEq, hLt, hGt, hLe, hGe, hordinary]

theorem accepts_tiling_at_zero : ∃ eq lt gt le ge, build ("=" ++ "0") true = .ok eq ∧
    build ("<" ++ "0") true = .ok lt ∧ build (">" ++ "0") true = .ok gt ∧
    build ("<=" ++ "0") true = .ok le ∧ build (">=" ++ "0") true = .ok ge ∧
    [lt.accepts ⟨⟨1, 0, 0⟩, ["a"], []⟩, eq.accepts ⟨⟨1, 0, 0⟩, ["a"], []⟩,
      gt.accepts ⟨⟨1, 0, 0⟩, ["a"], []⟩].count true = 1 ∧
    eq.accepts ⟨⟨0, 0, 0⟩, ["a"], []⟩ = true ∧ le.accepts ⟨⟨0, 0, 0⟩, ["a"], []⟩ = false := by
  have hread : Partial.read? "0".toList = some ⟨"0", none, none, [], []⟩ := by decide +kernel
  obtain ⟨eq, heq, haccepts⟩ : ∃ r, build ("=" ++ "0") true = .ok r ∧
      r.accepts ⟨⟨0, 0, 0⟩, ["a"], []⟩ = true := exists_build_of_accepts (by decide +kernel)
  obtain ⟨lt, gt, le, ge, hlt, hgt, hle, hge, h⟩ := accepts_tiling hread heq
  obtain ⟨-, -, hone, -⟩ := h ⟨⟨1, 0, 0⟩, ["a"], []⟩ ⟨by decide, by decide, by decide⟩
  obtain ⟨-, -, -, hmissing⟩ := h ⟨⟨0, 0, 0⟩, ["a"], []⟩ ⟨by decide, by decide, by decide⟩
  have hordinary : (⟨⟨1, 0, 0⟩, ["a"], []⟩ : Version).Ordinary true := .inr ⟨rfl, by decide⟩
  have hbelow : ¬ (⟨⟨0, 0, 0⟩, ["a"], []⟩ : Version).Ordinary true := by
    rintro (h | ⟨-, h⟩)
    · exact absurd h (by decide)
    · exact h rfl
  exact ⟨eq, lt, gt, le, ge, heq, hlt, hgt, hle, hge, (hone hordinary).1, haccepts,
    (hmissing hbelow).2.2⟩

end SemverRange.Requirement
