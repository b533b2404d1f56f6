import SemverRange.Proofs.Requirement.Bands
import SemverRange.Proofs.Requirement.Faults
import SemverRange.Proofs.Version.Writing

/-!
# Which requirements have a text

A bound may be one step above a number of the requirement, so it can have one digit more. Where the
numbers have a digit to spare (`Partial.Within` with one digit less than the limit), every bound of
every leaf can be written, and so can the clause.

Main result: `Requirement.exists_text?`.
-/

namespace SemverRange

/-- The step above any of the numbers can be written. -/
def Triple.Spare (t : Triple) : Prop :=
  (0 ≤ t.major ∧ t.major.natAbs + 1 < 10 ^ Numeral.limit) ∧
    (0 ≤ t.minor ∧ t.minor.natAbs + 1 < 10 ^ Numeral.limit) ∧
    (0 ≤ t.patch ∧ t.patch.natAbs + 1 < 10 ^ Numeral.limit)

theorem writable_zero : (⟨0, 0, 0⟩ : Triple).Writable := by
  have hpos : 0 < 10 ^ Numeral.limit := Nat.pow_pos (by decide)
  exact ⟨hpos, hpos, hpos⟩

namespace Partial

theorem spare_value {component : Option String} (h : Fits (Numeral.limit - 1) component) :
    0 ≤ value component ∧ (value component).natAbs + 1 < 10 ^ Numeral.limit := by
  refine ⟨value_nonneg component, ?_⟩
  have hstep : (10 : Nat) ^ (Numeral.limit - 1) < 10 ^ Numeral.limit :=
    Nat.pow_lt_pow_right (by decide) (by decide)
  have hvalue : (value component).natAbs < 10 ^ (Numeral.limit - 1) := by
    unfold value
    by_cases hw : isWildcard component = true
    · rw [if_pos hw]
      exact Nat.pow_pos (by decide)
    · rw [if_neg hw]
      have hlength := h.resolve_left hw
      calc Numeral.value (component.getD "").toList
          < 10 ^ (component.getD "").toList.length := Numeral.value_lt _
        _ ≤ 10 ^ (Numeral.limit - 1) := Nat.pow_le_pow_right (by decide) hlength
  omega

theorem spare_base {p : Partial} (h : p.Within (Numeral.limit - 1)) : p.base.Spare :=
  ⟨spare_value h.1, spare_value h.2.1, spare_value h.2.2⟩

section

variable {p : Partial} (h : p.base.Spare)
include h

theorem writable_base : p.base.Writable := by
  obtain ⟨hmajor, hminor, hpatch⟩ := h
  unfold Triple.Writable
  omega

theorem writable_bandEnd : (p.bandEnd p.base).Writable := by
  obtain ⟨hmajor, hminor, hpatch⟩ := h
  unfold bandEnd
  repeat' split
  all_goals
    simp only [Triple.Writable]
    omega

theorem writable_tildeEnd : p.tildeEnd.Writable := by
  obtain ⟨hmajor, hminor, hpatch⟩ := h
  unfold tildeEnd
  split
  all_goals
    simp only [Triple.Writable]
    omega

theorem writable_caretEnd : (p.caretEnd p.base).Writable := by
  obtain ⟨hmajor, hminor, hpatch⟩ := h
  have hone : 1 < 10 ^ Numeral.limit := Nat.one_lt_pow (by decide) (by decide)
  unfold caretEnd
  repeat' split
  all_goals
    simp only [Triple.Writable]
    omega

theorem writable_floorBottom (flag : Bool) : (p.floorBottom flag).toTriple.Writable := by
  rw [toTriple_floorBottom]
  exact writable_base h

theorem writable_bandCeiling (flag : Bool) : (p.bandCeiling flag).toTriple.Writable := by
  rw [bandCeiling, Version.toTriple_floor]
  exact writable_bandEnd h

end

end Partial

/-! ## Intervals -/

namespace Interval

/-- Both bounds have writable numbers. -/
structure Writable (i : Interval) : Prop where
  min : i.min.toTriple.Writable
  max : ∀ top, i.max = some top → top.toTriple.Writable

theorem Writable.exists_text? {i : Interval} (h : i.Writable) : ∃ text, i.text? = some text := by
  obtain ⟨low, hlow⟩ := Version.exists_text? h.min
  obtain ⟨high, hhigh⟩ : ∃ high, i.maxText? = some high := by
    unfold maxText?
    cases hmax : i.max with
    | none => exact ⟨"*", rfl⟩
    | some top => exact Version.exists_text? (h.max top hmax)
  simp [text?, hlow, hhigh]

theorem writable_empty : empty.Writable := by
  have hbound : 10 ^ 19 ≤ 10 ^ Numeral.limit := Nat.pow_le_pow_right (by decide) (by decide)
  have hlarge : 9223372036854775807 < 10 ^ Numeral.limit := by omega
  exact ⟨⟨hlarge, hlarge, hlarge⟩, fun top htop => Option.some.inj htop ▸ writable_zero⟩

end Interval

theorem Partial.bounding_writable {p : Partial} (h : p.base.Spare) (flag : Bool) :
    p.Bounding (·.toTriple.Writable) flag where
  empty := ⟨Interval.writable_empty.min, Interval.writable_empty.max⟩
  bottom := writable_base h
  floorBottom := writable_floorBottom h flag
  bandCeiling := writable_bandCeiling h flag
  tildeEnd := by
    rw [Version.toTriple_floor]
    exact writable_tildeEnd h
  caretEnd := by
    rw [Version.toTriple_floor]
    exact writable_caretEnd h

/-- The bounds of a comparator can be written. -/
theorem Comparator.writable_extent {p : Partial} (h : p.base.Spare) (c : Comparator)
    (flag : Bool) : (c.extent p flag).Writable := by
  have hbounds := c.bounds_extent (Partial.bounding_writable h flag)
  exact ⟨hbounds.min, hbounds.max⟩

theorem Interval.writable_span {low high : Partial} (hlow : low.base.Spare)
    (hhigh : high.base.Spare) (flag : Bool) : (span low high flag).Writable := by
  have hbounds := bounds_span (Partial.bounding_writable hlow flag)
    (Partial.bounding_writable hhigh flag)
  exact ⟨hbounds.min, hbounds.max⟩

/-! ## Clauses -/

section

variable {flag : Bool}

theorem exists_mapM_of_forall {α β : Type} {f : α → Option β} {xs : List α}
    (h : ∀ x ∈ xs, ∃ y, f x = some y) : ∃ ys, xs.mapM f = some ys := by
  rw [← Option.ne_none_iff_exists', ne_eq, mapM_eq_none_iff]
  rintro ⟨x, hx, hnone⟩
  obtain ⟨y, hy⟩ := h x hx
  exact absurd (hy.symm.trans hnone) (by simp)

theorem Segment.Spelled.exists_text? {s : Segment} (hs : s.Spelled) {c : Clause}
    (hc : s.clause flag = .ok c) (h : s.Within (Numeral.limit - 1)) :
    ∃ text, c.text? = some text := by
  obtain ⟨ls, rfl, hls⟩ := Segment.clause_eq_ok hs hc
  obtain ⟨hcomparisons, hranges⟩ := h
  have hleaves : ∀ l ∈ ls, ∃ text, l.text? = some text := by
    intro l hl
    have hwritable : l.interval.Writable := by
      cases (hls l).1 hl with
      | comparison hc _ =>
        exact Comparator.writable_extent (Partial.spare_base (hcomparisons _ hc)) _ flag
      | hyphenRange hr =>
        obtain ⟨hlow, hhigh⟩ := hranges _ hr
        exact Interval.writable_span (Partial.spare_base hlow) (Partial.spare_base hhigh) flag
    obtain ⟨text, htext⟩ := hwritable.exists_text?
    exact ⟨l.tag ++ text, by rw [Leaf.text?, htext]; rfl⟩
  obtain ⟨texts, htexts⟩ : ∃ texts, (ls.map Clause.leaf).mapM Clause.text? = some texts := by
    apply exists_mapM_of_forall
    intro c hc
    obtain ⟨l, hl, rfl⟩ := List.mem_map.1 hc
    obtain ⟨text, htext⟩ := hleaves l hl
    exact ⟨text, by rw [Clause.text?, htext]⟩
  exact ⟨_, by rw [Clause.text?, Clause.texts?_eq_mapM, htexts]; rfl⟩

/-- A clause whose numbers have a digit to spare has a text. -/
theorem Outline.exists_text? {raw : String} {o : Outline} (ho : parse raw = .ok o) {c : Clause}
    (hc : o.clause flag = .ok c) (h : o.Within (Numeral.limit - 1)) :
    ∃ text, c.text? = some text := by
  obtain ⟨cs, hcs, rfl⟩ := clause_eq_ok_iff.1 hc
  obtain ⟨texts, htexts⟩ : ∃ texts, cs.mapM Clause.text? = some texts := by
    apply exists_mapM_of_forall
    intro d hd
    obtain ⟨s, hs, hclause⟩ := exists_mem_of_map_eq_map hcs.symm hd
    exact (spelled_of_parse ho s hs).exists_text? hclause (h s hs)
  exact ⟨_, by rw [Clause.text?_either, htexts]; rfl⟩

theorem Requirement.exists_text? {raw : String} {o : Outline} (ho : Outline.parse raw = .ok o)
    {r : Requirement} (hr : build raw flag = .ok r) (h : o.Within (Numeral.limit - 1)) :
    ∃ text, r.clause.text? = some text := by
  obtain ⟨o', c, ho', hc, rfl⟩ := build_eq_ok_iff.1 hr
  obtain rfl : o = o' := Except.ok.inj (ho.symm.trans ho')
  exact Outline.exists_text? ho hc h

end

end SemverRange
