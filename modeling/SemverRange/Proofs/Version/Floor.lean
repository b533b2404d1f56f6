import SemverRange.Proofs.Band.Reading

/-!
# The floor cuts between triples

The floor of a release is the pre-release `0` of its triple. No pre-release of that triple lies
below it, and precedence decides by the triple first, so a version is below the floor exactly if
its triple is lower. Among releases the release itself cuts at the same place, whatever its build.

Main result: `Version.floor_cuts_triples`.
-/

namespace SemverRange

theorem Triple.not_lt_iff {a b : Triple} : ¬ a < b ↔ b < a ∨ b = a := by
  simp only [lt_iff, eq_iff]
  omega

namespace Version

theorem ge_eq_not_lt (v w : Version) : v.ge w = !v.lt w := by
  unfold ge lt
  cases v.precedence w <;> rfl

/-! ## Releases as bounds -/

section

variable {b v : Version} (hb : b.isRelease = true)
include hb

theorem floor_eq_of_isRelease : b.floor true = (release b.toTriple).floor true := by
  rw [floor, hb]
  rfl

theorem precedence_eq_of_isRelease : v.precedence b = v.precedence (release b.toTriple) := by
  rw [precedence, isRelease_iff.1 hb]
  rfl

/-- A version is below the floor of a release if its triple is lower. -/
theorem lt_floor_iff_triple : v.lt (b.floor true) = true ↔ v.toTriple < b.toTriple := by
  rw [lt_eq_true_iff, floor_eq_of_isRelease hb, precedence_floor_eq_lt_iff]
  simp [Included]

theorem lt_iff_triple_of_isRelease (hv : v.isRelease = true) :
    v.lt b = true ↔ v.toTriple < b.toTriple := by
  rw [lt_eq_true_iff, precedence_eq_of_isRelease hb, precedence_release_eq_lt_iff]
  simp [hv]

theorem ge_floor_iff_triple :
    v.ge (b.floor true) = true ↔ b.toTriple < v.toTriple ∨ b.toTriple = v.toTriple := by
  rw [ge_eq_not_lt, Bool.not_eq_true', ← Bool.not_eq_true, lt_floor_iff_triple hb,
    Triple.not_lt_iff]

/-- Releases do not tell the floor of a release from the release. -/
theorem lt_floor_eq_of_isRelease (hv : v.isRelease = true) : v.lt (b.floor true) = v.lt b := by
  rw [Bool.eq_iff_iff, lt_floor_iff_triple hb, lt_iff_triple_of_isRelease hb hv]

end

theorem IsNatural.not_lt_zero {v : Version} (hv : v.IsNatural) : ¬ v.toTriple < ⟨0, 0, 0⟩ := by
  obtain ⟨hmajor, hminor, hpatch⟩ := hv
  rw [Triple.lt_mk_iff]
  omega

/-- **The floor of a release cuts between triples.** The versions from it on are those whose triple
is that of the release or higher, and the versions below it are those whose triple is lower. No
version is below `0.0.0-0`, and releases compare with the floor as they do with the release. -/
theorem floor_cuts_triples {b : Version} (hb : b.isRelease = true) :
    (∀ v : Version,
      (v.ge (b.floor true) = true ↔ b.toTriple < v.toTriple ∨ b.toTriple = v.toTriple) ∧
      (v.lt (b.floor true) = true ↔ v.toTriple < b.toTriple)) ∧
    (∀ v : Version, v.IsNatural → v.ge ⟨⟨0, 0, 0⟩, ["0"], []⟩ = true) ∧
    ∀ v : Version, v.isRelease = true →
      v.ge (b.floor true) = v.ge b ∧ v.lt (b.floor true) = v.lt b := by
  refine ⟨fun v => ⟨ge_floor_iff_triple hb, lt_floor_iff_triple hb⟩, fun v hv => ?_,
    fun v hv => ?_⟩
  · have hzero : zero.floor true = ⟨⟨0, 0, 0⟩, ["0"], []⟩ := rfl
    rw [← hzero, ge_floor_iff_triple rfl]
    exact Triple.not_lt_iff.1 hv.not_lt_zero
  · have hlt := lt_floor_eq_of_isRelease hb hv
    rw [ge_eq_not_lt, ge_eq_not_lt, hlt]
    exact ⟨rfl, rfl⟩

theorem floor_cuts_triples_two :
    ge ⟨⟨2, 0, 0⟩, ["0", "a"], []⟩ (floor ⟨⟨2, 0, 0⟩, [], ["x"]⟩ true) = true ∧
    lt ⟨⟨1, 9, 12⟩, [], []⟩ (floor ⟨⟨2, 0, 0⟩, [], ["x"]⟩ true) = true ∧
    ge ⟨⟨0, 0, 0⟩, ["0", "0"], []⟩ ⟨⟨0, 0, 0⟩, ["0"], []⟩ = true ∧
    ge ⟨⟨2, 0, 0⟩, [], ["y"]⟩ (floor ⟨⟨2, 0, 0⟩, [], ["x"]⟩ true) =
      ge ⟨⟨2, 0, 0⟩, [], ["y"]⟩ ⟨⟨2, 0, 0⟩, [], ["x"]⟩ := by
  obtain ⟨hcut, hleast, hreleases⟩ := floor_cuts_triples (b := ⟨⟨2, 0, 0⟩, [], ["x"]⟩) rfl
  have hlower : (⟨1, 9, 12⟩ : Triple) < ⟨2, 0, 0⟩ := .inl (by decide)
  exact ⟨(hcut _).1.2 (.inr rfl), (hcut _).2.2 hlower,
    hleast _ ⟨by decide, by decide, by decide⟩, (hreleases _ rfl).1⟩

end Version

end SemverRange
