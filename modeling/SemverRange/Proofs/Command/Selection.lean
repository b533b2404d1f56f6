import SemverRange.Proofs.Command.Verdicts
import SemverRange.Proofs.Version.Ties

/-!
# Checking, filtering and choosing agree

**What is kept** (`kept`). A candidate is kept if checking it says that it is accepted. These are
the candidates of which the rows say so, and the filter has their versions in the same order.

**The order of the candidates.** The chosen version is as high as any that is kept. Of the
candidates in another order the same are kept in another order, so what is chosen there ties with
it; and versions that were read and tie differ in build alone.

Main result: `selection_agrees`.
-/

namespace SemverRange.Command

variable {r : Requirement} {c : String} {cs cs' : List String}

/-! ## What is kept -/

/-- The candidates that are accepted, each checked on its own. -/
def kept (r : Requirement) (cs : List String) : List String :=
  cs.filter fun c => r.check (.text c) = .ok true

theorem satisfied_row : (row r c).satisfied = true ↔ r.check (.text c) = .ok true := by
  unfold row
  split
  · rename_i accepted hcheck
    simp [hcheck]
  · rename_i e hcheck
    simp [hcheck]

/-- The rows and the checks agree. -/
theorem satisfied_rows_eq_kept (r : Requirement) (cs : List String) :
    ((rows r cs).filter (·.satisfied)).map (·.version) = kept r cs := by
  have hversion : ∀ c ∈ kept r cs, ((·.version) ∘ row r) c = c := fun c _ => version_row r c
  have hkept : cs.filter ((·.satisfied) ∘ row r) = kept r cs := by
    refine List.filter_congr fun c _ => Bool.eq_iff_iff.2 ?_
    rw [decide_eq_true_eq]
    exact satisfied_row
  calc ((rows r cs).filter (·.satisfied)).map (·.version)
      = (((cs.map (row r)).filter (·.satisfied)).map (·.version)) := rfl
    _ = (kept r cs).map ((·.version) ∘ row r) := by rw [List.filter_map, List.map_map, hkept]
    _ = kept r cs := by rw [List.map_congr_left hversion, List.map_id']

/-- The filter and the checks agree: the versions that are kept, in order. -/
theorem forall₂_parse_kept (r : Requirement) (cs : List String) :
    List.Forall₂ (fun c v => Version.parse c = .ok v) (kept r cs) (r.filter (cs.map .text)) := by
  induction cs with
  | nil => exact .nil
  | cons c cs ih =>
    rw [filter_text_cons]
    cases hparse : Version.parse c with
    | error e =>
      have hcheck : r.check (.text c) = .error e := by
        simp [Requirement.check, Candidate.read, hparse, Functor.map, Except.map]
      simpa [kept, hcheck, Except.toOption] using ih
    | ok v =>
      have hcheck := Requirement.check_of_read (r := r) (c := .text c) hparse
      by_cases haccepts : r.accepts v = true
      · simpa [kept, hcheck, haccepts, Except.toOption] using ⟨hparse, ih⟩
      · simpa [kept, hcheck, haccepts, Except.toOption] using ih

/-! ## What is chosen -/

/-- Highest versions among the same candidates differ in build alone. -/
theorem same_of_highest_of_perm {m m' : Version} (h : cs.Perm cs')
    (hm : r.maxSatisfying (cs.map .text) = some m)
    (hm' : r.maxSatisfying (cs'.map .text) = some m') :
    m.toTriple = m'.toTriple ∧ m.prerelease = m'.prerelease := by
  have hfirst := Requirement.firstHighest_of_highest hm
  have hfirst' := Requirement.firstHighest_of_highest hm'
  have hfilter := Requirement.perm_filter r (h.map .text)
  have htie := Version.precedence_eq_eq_of_le (hfirst'.le m (hfilter.mem_iff.1 hfirst.mem))
    (hfirst.le m' (hfilter.mem_iff.2 hfirst'.mem))
  obtain ⟨s, hs⟩ := exists_parse_of_mem_filter hfirst.mem
  obtain ⟨s', hs'⟩ := exists_parse_of_mem_filter hfirst'.mem
  exact Version.same_of_precedence_eq hs hs' htie

/-- **Checking, filtering and choosing agree.** The filter has, in order and with repetitions, the
versions of the candidates that are accepted one by one, which are those of the satisfied rows; the
version that is chosen is the first of the highest of these, and there is none only if there are
none of these; and the order of the candidates makes no difference to it but for the build. -/
theorem selection_agrees (r : Requirement) (cs : List String) :
    List.Forall₂ (fun c v => Version.parse c = .ok v) (kept r cs) (r.filter (cs.map .text)) ∧
    ((rows r cs).filter (·.satisfied)).map (·.version) = kept r cs ∧
    (r.maxSatisfying (cs.map .text) = none ↔ r.filter (cs.map .text) = []) ∧
    (∀ m, r.maxSatisfying (cs.map .text) = some m →
      Requirement.FirstHighest (r.filter (cs.map .text)) m) ∧
    ∀ cs', cs.Perm cs' →
      (r.maxSatisfying (cs.map .text) = none ∧ r.maxSatisfying (cs'.map .text) = none) ∨
      ∃ m m', r.maxSatisfying (cs.map .text) = some m ∧
        r.maxSatisfying (cs'.map .text) = some m' ∧
        m.toTriple = m'.toTriple ∧ m.prerelease = m'.prerelease := by
  refine ⟨forall₂_parse_kept r cs, satisfied_rows_eq_kept r cs, Requirement.highest_eq_none_iff,
    fun m hm => Requirement.firstHighest_of_highest hm, fun cs' hperm => ?_⟩
  have hnone : r.maxSatisfying (cs.map .text) = none ↔ r.maxSatisfying (cs'.map .text) = none := by
    have hfilter := Requirement.perm_filter r (hperm.map .text)
    rw [Requirement.maxSatisfying, Requirement.maxSatisfying, Requirement.highest_eq_none_iff,
      Requirement.highest_eq_none_iff, ← List.length_eq_zero_iff, hfilter.length_eq,
      List.length_eq_zero_iff]
  cases hm : r.maxSatisfying (cs.map .text) with
  | none => exact .inl ⟨rfl, hnone.1 hm⟩
  | some m =>
    cases hm' : r.maxSatisfying (cs'.map .text) with
    | none => exact absurd (hm.symm.trans (hnone.2 hm')) (by simp)
    | some m' => exact .inr ⟨m, m', rfl, rfl, same_of_highest_of_perm hperm hm hm'⟩

theorem selection_agrees_reversed : ∃ r, Requirement.build ">=1.2" false = .ok r ∧
    Requirement.FirstHighest (r.filter (["1.4.0+a", "x", "1.0.0", "1.4.0+b"].map .text))
      ⟨⟨1, 4, 0⟩, [], ["a"]⟩ ∧
    ∃ m m', r.maxSatisfying (["1.4.0+a", "x", "1.0.0", "1.4.0+b"].map .text) = some m ∧
      r.maxSatisfying (["1.4.0+b", "1.0.0", "x", "1.4.0+a"].map .text) = some m' ∧
      m.toTriple = m'.toTriple ∧ m.prerelease = m'.prerelease := by
  have hchoice : (Requirement.build ">=1.2" false).toOption.map
      (·.maxSatisfying (["1.4.0+a", "x", "1.0.0", "1.4.0+b"].map .text)) =
        some (some ⟨⟨1, 4, 0⟩, [], ["a"]⟩) := by
    decide +kernel
  obtain ⟨r, hr, hm⟩ := Option.map_eq_some_iff.1 hchoice
  obtain ⟨-, -, -, hfirst, hperm⟩ := selection_agrees r ["1.4.0+a", "x", "1.0.0", "1.4.0+b"]
  refine ⟨r, eq_ok_of_toOption hr, hfirst _ hm, ?_⟩
  have hreversed := hperm ["1.4.0+b", "1.0.0", "x", "1.4.0+a"] (by decide)
  exact hreversed.resolve_left fun hnone => absurd (hm.symm.trans hnone.1) (by simp)

end SemverRange.Command
