import SemverRange.Proofs.Version.Order
import SemverRange.Requirement.Basic

/-!
# Choosing among candidates

**Filtering** keeps the order of the candidates, so what one requirement keeps of a list that
another one accepts is a part of it (`sublist_filter`).

**Choosing.** The scan keeps the best version so far and replaces it only by a higher one. So at
each point the versions before the best one are lower, and those behind it are not higher
(`FirstHighest`).

Main results: `firstHighest_of_highest` and `exists_highest_of_mem`.
-/

namespace SemverRange

namespace Requirement

/-! ## Filtering -/

/-- Accepted versions of a part of the candidates are a part of the accepted versions. -/
theorem sublist_filter {r : Requirement} {cs : List Candidate} {vs : List Version}
    (hvs : vs.Sublist (cs.filterMap (·.read.toOption))) (h : ∀ v ∈ vs, r.accepts v = true) :
    vs.Sublist (r.filter cs) := by
  rw [← List.filter_eq_self.2 h]
  exact hvs.filter r.accepts

/-- Of the candidates in another order the same versions are accepted, in another order. -/
theorem perm_filter (r : Requirement) {cs cs' : List Candidate} (h : cs.Perm cs') :
    (r.filter cs).Perm (r.filter cs') :=
  (h.filterMap _).filter _

/-! ## Choosing -/

/-- The versions before `m` are lower, and those behind it are not higher. -/
def FirstHighest (vs : List Version) (m : Version) : Prop :=
  ∃ before after, vs = before ++ m :: after ∧ (∀ w ∈ before, w.lt m = true) ∧
    ∀ w ∈ after, w.le m = true

namespace FirstHighest

variable {v w m : Version} {vs : List Version}

theorem mem (h : FirstHighest vs m) : m ∈ vs := by
  obtain ⟨before, after, rfl, -, -⟩ := h
  simp

theorem le (h : FirstHighest vs m) : ∀ w ∈ vs, w.le m = true := by
  obtain ⟨before, after, rfl, hbefore, hafter⟩ := h
  intro w hw
  rcases List.mem_append.1 hw with hw | hw
  · exact Version.le_of_lt (hbefore w hw)
  · rcases List.mem_cons.1 hw with rfl | hw
    · exact Version.le_refl w
    · exact hafter w hw

theorem cons (hv : v.lt m = true) (h : FirstHighest vs m) : FirstHighest (v :: vs) m := by
  obtain ⟨before, after, rfl, hbefore, hafter⟩ := h
  refine ⟨v :: before, after, rfl, ?_, hafter⟩
  intro u hu
  rcases List.mem_cons.1 hu with rfl | hu
  · exact hv
  · exact hbefore u hu

theorem insert (hw : w.le v = true) (h : FirstHighest (v :: vs) m) :
    FirstHighest (v :: w :: vs) m := by
  obtain ⟨before, after, heq, hbefore, hafter⟩ := h
  cases before with
  | nil =>
    obtain ⟨rfl, rfl⟩ := List.cons.inj heq
    refine ⟨[], w :: vs, rfl, hbefore, ?_⟩
    intro u hu
    rcases List.mem_cons.1 hu with rfl | hu
    · exact hw
    · exact hafter u hu
  | cons b before =>
    obtain ⟨rfl, rfl⟩ := List.cons.inj heq
    have hv := hbefore v List.mem_cons_self
    have hrest : FirstHighest (before ++ m :: after) m :=
      ⟨before, after, rfl, fun u hu => hbefore u (List.mem_cons_of_mem _ hu), hafter⟩
    exact (hrest.cons (Version.lt_of_le_of_lt hw hv)).cons hv

end FirstHighest

/-- The scan keeps the first of the highest versions. -/
theorem firstHighest_foldl (vs : List Version) (v : Version) :
    FirstHighest (v :: vs) (vs.foldl (fun best w => if w.gt best then w else best) v) := by
  induction vs generalizing v with
  | nil => exact ⟨[], [], rfl, by simp, by simp⟩
  | cons w vs ih =>
    rw [List.foldl_cons]
    by_cases hw : w.gt v = true
    · rw [if_pos hw]
      rw [Version.gt_eq_lt] at hw
      exact (ih w).cons (Version.lt_of_lt_of_le hw ((ih w).le w List.mem_cons_self))
    · rw [if_neg hw]
      rw [Version.gt_eq_lt, Version.lt_iff_not_le, Decidable.not_not] at hw
      exact (ih v).insert hw

theorem highest_eq_none_iff {vs : List Version} : highest vs = none ↔ vs = [] := by
  cases vs <;> simp [highest]

theorem firstHighest_of_highest {vs : List Version} {m : Version} (h : highest vs = some m) :
    FirstHighest vs m := by
  cases vs with
  | nil => exact absurd h (by simp [highest])
  | cons v vs =>
    obtain rfl := Option.some.inj h
    exact firstHighest_foldl vs v

/-- Among candidates there is a highest, and it is not below any of them. -/
theorem exists_highest_of_mem {vs : List Version} {v : Version} (h : v ∈ vs) :
    ∃ m, highest vs = some m ∧ v.le m = true := by
  cases vs with
  | nil => exact absurd h List.not_mem_nil
  | cons w vs => exact ⟨_, rfl, (firstHighest_foldl vs w).le v h⟩

end Requirement

end SemverRange
