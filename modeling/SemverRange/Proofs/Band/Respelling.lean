import SemverRange.Band
import SemverRange.Proofs.Partial.Rendering

/-!
# The spelling of a wildcard does not count

**Respelling** (`Partial.Respells`). Two partial versions are respellings of each other if they
have wildcards in the same places and agree in everything else. A partial version and the one with
its missing components filled in are such a pair.

**Outcomes** (`Partial.SameOutcome`). Nothing but an error text shows how a wildcard is spelled, so
each step comes out the same for both: with the same value, with the same error, or with two errors
that differ in that each names the rendering of its own version. Steps in sequence keep this up
(`SameOutcome.bind`), and where the renderings are equal it is equality.

Main result: `Partial.render_and_respell`.
-/

namespace SemverRange

namespace Partial

/-! ## Respelling -/

/-- The components are equal, or both are wildcards. -/
def Interchangeable (a b : Option String) : Prop :=
  a = b ∨ (isWildcard a = true ∧ isWildcard b = true)

theorem Interchangeable.isWildcard_eq {a b : Option String} (h : Interchangeable a b) :
    isWildcard a = isWildcard b := by
  rcases h with rfl | ⟨ha, hb⟩
  · rfl
  · rw [ha, hb]

theorem Interchangeable.number_eq {a b : Option String} (h : Interchangeable a b) :
    number a = number b := by
  rcases h with rfl | ⟨ha, hb⟩
  · rfl
  · rw [number, if_pos ha, number, if_pos hb]

/-- The partial versions differ in the spelling of wildcards alone. -/
structure Respells (p q : Partial) : Prop where
  major : Interchangeable p.major q.major
  minor : Interchangeable p.minor q.minor
  patch : Interchangeable p.patch q.patch
  prerelease : p.prerelease = q.prerelease
  build : p.build = q.build

theorem interchangeable_getD (component : Option String) :
    Interchangeable component (some (component.getD "x")) := by
  cases component with
  | none => exact .inr ⟨rfl, (by decide : isWildcard (some "x") = true)⟩
  | some s => exact .inl rfl

theorem respells_filled (p : Partial) : p.Respells p.filled where
  major := .inl rfl
  minor := interchangeable_getD p.minor
  patch := interchangeable_getD p.patch
  prerelease := rfl
  build := rfl

/-! ## Outcomes -/

/-- The steps come out the same, but that errors may name the rendering of `p` and of `q`. -/
inductive SameOutcome (p q : Partial) {α : Type} :
    Except RequirementError α → Except RequirementError α → Prop
  | same (x : Except RequirementError α) : SameOutcome p q x x
  | malformed : SameOutcome p q (.error (.malformed p.render)) (.error (.malformed q.render))

namespace SameOutcome

variable {p q : Partial} {α β : Type}

theorem bind {x y : Except RequirementError α} {f g : α → Except RequirementError β}
    (h : SameOutcome p q x y) (hfg : ∀ a, SameOutcome p q (f a) (g a)) :
    SameOutcome p q (x >>= f) (y >>= g) := by
  cases h with
  | same x =>
    cases x with
    | error e => exact .same _
    | ok a => exact hfg a
  | malformed => exact .malformed

/-- With equal renderings nothing tells the outcomes apart. -/
theorem eq {x y : Except RequirementError α} (h : SameOutcome p q x y)
    (hrender : p.render = q.render) : x = y := by
  cases h with
  | same => rfl
  | malformed => rw [hrender]

end SameOutcome

/-! ## Bounds -/

namespace Respells

variable {p q : Partial} (h : p.Respells q)
include h

theorem isExact_eq : p.isExact = q.isExact := by
  rw [isExact, isExact, h.major.isWildcard_eq, h.minor.isWildcard_eq, h.patch.isWildcard_eq]

theorem isMisshapen_eq : p.isMisshapen = q.isMisshapen := by
  rw [isMisshapen, isMisshapen, h.major.isWildcard_eq, h.minor.isWildcard_eq,
    h.patch.isWildcard_eq, h.prerelease, h.build]

theorem check : SameOutcome p q p.check q.check := by
  unfold Partial.check
  rw [h.isMisshapen_eq]
  split
  · exact .malformed
  · exact .same _

theorem triple : SameOutcome p q p.triple q.triple := by
  unfold Partial.triple
  rw [h.major.number_eq, h.minor.number_eq, h.patch.number_eq]
  exact h.check.bind fun _ => .same _

theorem qualified (t : Triple) : SameOutcome p q (p.qualified t) (q.qualified t) := by
  unfold Partial.qualified
  rw [h.isExact_eq, h.prerelease, h.build]
  split
  · split
    · exact .same _
    · exact .malformed
  · exact .same _

theorem lowest : SameOutcome p q p.lowest q.lowest := h.triple.bind h.qualified

theorem bandTop : SameOutcome p q p.bandTop q.bandTop := by
  apply h.triple.bind
  intro t
  have hend : p.bandEnd t = q.bandEnd t := by
    rw [bandEnd, bandEnd, h.minor.isWildcard_eq, h.patch.isWildcard_eq]
  rw [hend]
  exact h.qualified _

theorem tildeTop : SameOutcome p q p.tildeTop q.tildeTop := by
  unfold Partial.tildeTop
  rw [h.major.number_eq, h.minor.number_eq, h.minor.isWildcard_eq]
  exact h.check.bind fun _ => .same _

theorem caretTop : SameOutcome p q p.caretTop q.caretTop := by
  apply h.triple.bind
  intro t
  have hend : p.caretEnd t = q.caretEnd t := by
    rw [caretEnd, caretEnd, h.minor.isWildcard_eq, h.patch.isWildcard_eq]
  rw [hend]
  exact .same _

theorem lower (flag : Bool) : SameOutcome p q (p.lower flag) (q.lower flag) := by
  unfold Partial.lower
  rw [h.isExact_eq]
  exact h.lowest.bind fun _ => .same _

/-! ## Comparators and hyphen ranges -/

theorem band (c : Comparator) (flag : Bool) :
    SameOutcome p q (c.band p flag) (c.band q flag) := by
  have hlower := h.lower flag
  unfold Comparator.band
  rw [h.isExact_eq]
  cases c with
  | eq =>
    by_cases hexact : q.isExact = true
    · simp only [if_pos hexact]
      exact h.lowest.bind fun _ => .same _
    · simp only [if_neg hexact]
      exact hlower.bind fun _ => h.bandTop.bind fun _ => .same _
  | gt | le =>
    by_cases hexact : q.isExact = true
    · simp only [if_pos hexact]
      exact h.lowest.bind fun _ => .same _
    · simp only [if_neg hexact]
      exact h.bandTop.bind fun _ => .same _
  | lt | ge => exact hlower.bind fun _ => .same _
  | tilde => exact hlower.bind fun _ => h.tildeTop.bind fun _ => .same _
  | caret => exact hlower.bind fun _ => h.caretTop.bind fun _ => .same _

/-- Respellings have the same interval after every comparator, or fail together. -/
theorem interval (c : Comparator) (flag : Bool) :
    SameOutcome p q (c.interval p flag) (c.interval q flag) := by
  unfold Comparator.interval
  rw [h.major.isWildcard_eq]
  by_cases hmajor : isWildcard q.major = true
  · simp only [if_pos hmajor]
    exact h.check.bind fun _ => .same _
  · simp only [if_neg hmajor]
    exact h.band c flag

theorem lowEnd (flag : Bool) :
    SameOutcome p q (Interval.lowEnd p flag) (Interval.lowEnd q flag) := by
  unfold Interval.lowEnd
  rw [h.major.isWildcard_eq]
  by_cases hmajor : isWildcard q.major = true
  · simp only [if_pos hmajor]
    exact h.check.bind fun _ => .same _
  · simp only [if_neg hmajor]
    exact h.lower flag

/-- Respellings can be exchanged at the low end of a hyphen range. -/
theorem between_low (high : Partial) (flag : Bool) :
    SameOutcome p q (Interval.between p high flag) (Interval.between q high flag) :=
  (h.lowEnd flag).bind fun _ => .same _

/-- Respellings can be exchanged at the high end of a hyphen range. -/
theorem between_high (low : Partial) (flag : Bool) :
    SameOutcome p q (Interval.between low p flag) (Interval.between low q flag) := by
  unfold Interval.between
  rw [h.major.isWildcard_eq, h.isExact_eq]
  refine (SameOutcome.same (Interval.lowEnd low flag)).bind fun _ => ?_
  by_cases hmajor : isWildcard q.major = true
  · simp only [if_pos hmajor]
    exact h.check.bind fun _ => .same _
  · simp only [if_neg hmajor]
    by_cases hexact : q.isExact = true
    · simp only [if_pos hexact]
      exact h.lowest.bind fun _ => .same _
    · simp only [if_neg hexact]
      exact h.bandTop.bind fun _ => .same _

end Respells

/-- **The rendering of a partial version stands for it.** It is read as the partial version with `x`
for each missing component, which has the same rendering and, after every comparator and at either
end of a hyphen range, the same interval or the same error. Any two partial versions that differ in
the spelling of wildcards alone have the same intervals, or fail together. -/
theorem render_and_respell :
    (∀ (cs : List Char) (p : Partial), read? cs = some p →
      read? p.render.toList = some p.filled ∧ p.filled.render = p.render ∧
      (∀ (c : Comparator) flag, c.interval p.filled flag = c.interval p flag) ∧
      ∀ other flag, Interval.between p.filled other flag = Interval.between p other flag ∧
        Interval.between other p.filled flag = Interval.between other p flag) ∧
    ∀ p q : Partial, p.Respells q →
      (∀ (c : Comparator) flag, SameOutcome p q (c.interval p flag) (c.interval q flag)) ∧
      ∀ other flag,
        SameOutcome p q (Interval.between p other flag) (Interval.between q other flag) ∧
        SameOutcome p q (Interval.between other p flag) (Interval.between other q flag) := by
  refine ⟨fun cs p hread => ?_, fun p q h => ?_⟩
  · have h := p.respells_filled
    have hrender := p.render_filled.symm
    refine ⟨read?_render hread, p.render_filled, fun c flag => ?_, fun other flag => ⟨?_, ?_⟩⟩
    · exact ((h.interval c flag).eq hrender).symm
    · exact ((h.between_low other flag).eq hrender).symm
    · exact ((h.between_high other flag).eq hrender).symm
  · exact ⟨h.interval, fun other flag => ⟨h.between_low other flag, h.between_high other flag⟩⟩

theorem render_and_respell_beta :
    read? "v1-beta".toList = some ⟨"1", none, none, ["beta"], []⟩ ∧
    read? "1.x.x-beta".toList = some ⟨"1", some "x", some "x", ["beta"], []⟩ ∧
    Comparator.interval .caret ⟨"1", some "x", some "x", ["beta"], []⟩ true =
      .error (.malformed "1.x.x-beta") ∧
    SameOutcome ⟨"*", some "x", some "1", [], []⟩ ⟨"X", some "*", some "1", [], []⟩
      (Interval.between ⟨"1", none, none, [], []⟩ ⟨"*", some "x", some "1", [], []⟩ false)
      (Interval.between ⟨"1", none, none, [], []⟩ ⟨"X", some "*", some "1", [], []⟩ false) := by
  have hread : read? "v1-beta".toList = some ⟨"1", none, none, ["beta"], []⟩ := by decide +kernel
  have hrender : (⟨"1", none, none, ["beta"], []⟩ : Partial).render = "1.x.x-beta" := by
    decide +kernel
  obtain ⟨hrendered, hrespelled⟩ := render_and_respell
  obtain ⟨hback, -, hinterval, -⟩ := hrendered _ _ hread
  rw [hrender] at hback
  have hrespells : Respells ⟨"*", some "x", some "1", [], []⟩ ⟨"X", some "*", some "1", [], []⟩ :=
    ⟨.inr ⟨by decide, by decide⟩, .inr ⟨by decide, by decide⟩, .inl rfl, rfl, rfl⟩
  exact ⟨hread, hback, (hinterval .caret true).trans (by decide +kernel),
    ((hrespelled _ _ hrespells).2 ⟨"1", none, none, [], []⟩ false).2⟩

end Partial

end SemverRange
