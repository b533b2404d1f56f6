import Mathlib.Algebra.Group.Nat.Defs
import SemverRange.Proofs.Version.Candidate

/-!
# Which versions have a text

A number of `k` digits is below `10 ^ k`, and a number below `10 ^ k` is written with at most `k`
digits. So a version has a text if its numbers are below `10 ^ Numeral.limit` (`Triple.Writable`),
as those of a version that was read are.

Main results: `Version.exists_text?` and `Version.writable_of_parse`.
-/

namespace SemverRange

namespace Numeral

open Text

/-- Digits write a number below the power of ten that their count gives. -/
theorem value_lt (cs : List Char) : value cs < 10 ^ cs.length := by
  -- each digit multiplies the bound of what was read before by ten
  have key : ∀ (cs : List Char) (n : Nat),
      cs.foldl (fun n c => 10 * n + digitValue c) n < (n + 1) * 10 ^ cs.length := by
    intro cs
    induction cs with
    | nil => intro n; simp
    | cons c cs ih =>
      intro n
      have hdigit := digitValue_lt_ten c
      have hstep : (10 * n + digitValue c + 1) * 10 ^ cs.length ≤
          10 * (n + 1) * 10 ^ cs.length := Nat.mul_le_mul_right _ (by omega)
      calc (c :: cs).foldl (fun n c => 10 * n + digitValue c) n
          < (10 * n + digitValue c + 1) * 10 ^ cs.length := ih _
        _ ≤ 10 * (n + 1) * 10 ^ cs.length := hstep
        _ = (n + 1) * 10 ^ (c :: cs).length := by
          rw [List.length_cons, Nat.pow_succ, Nat.mul_comm 10 (n + 1), Nat.mul_assoc,
            Nat.mul_comm 10]
  simpa [value] using key cs 0

theorem exists_text? {n : Int} (h : n.natAbs < 10 ^ limit) : ∃ cs, text? n = some cs := by
  have hlength : (Nat.toDigits 10 n.natAbs).length ≤ limit :=
    (Nat.length_toDigits_le_iff (by decide) (by decide)).2 h
  exact ⟨digits n, by rw [text?, if_pos hlength]⟩

end Numeral

/-- All three numbers can be written. -/
def Triple.Writable (t : Triple) : Prop :=
  t.major.natAbs < 10 ^ Numeral.limit ∧ t.minor.natAbs < 10 ^ Numeral.limit ∧
    t.patch.natAbs < 10 ^ Numeral.limit

namespace Version

/-- A version of writable numbers has a text. -/
theorem exists_text? {v : Version} (h : v.toTriple.Writable) : ∃ text, v.text? = some text := by
  obtain ⟨major, hmajor⟩ := Numeral.exists_text? h.1
  obtain ⟨minor, hminor⟩ := Numeral.exists_text? h.2.1
  obtain ⟨patch, hpatch⟩ := Numeral.exists_text? h.2.2
  simp [text?, written?, hmajor, hminor, hpatch]

theorem natAbs_lt_of_component? {cs : List Char} {n : Int} (h : component? cs = some n) :
    n.natAbs < 10 ^ Numeral.limit := by
  unfold component? at h
  split at h
  · exact absurd h (by simp)
  · obtain ⟨m, hm, rfl⟩ := Option.map_eq_some_iff.1 h
    obtain ⟨-, hlength, rfl⟩ := Numeral.read?_eq_some_iff.1 hm
    calc Numeral.value cs < 10 ^ cs.length := Numeral.value_lt cs
      _ ≤ 10 ^ Numeral.limit := Nat.pow_le_pow_right (by decide) hlength

/-- A version that was read has a text. -/
theorem writable_of_parse {s : String} {v : Version} (h : parse s = .ok v) :
    v.toTriple.Writable := by
  obtain ⟨major, minor, patch, hmajor, hminor, hpatch⟩ := exists_components_of_parse h
  exact ⟨natAbs_lt_of_component? hmajor, natAbs_lt_of_component? hminor,
    natAbs_lt_of_component? hpatch⟩

end Version

end SemverRange
