import SemverRange.Requirement.Basic

/-!
# Whether a requirement can be built

Two runs of the same steps are *alike* if both succeed or both fail for the same reason
(`Alike`). Steps in sequence are alike if each is (`Alike.bind`), and so are steps over a list.

**The flag.** Building with and without pre-releases takes the same steps: the flag moves the
bounds of intervals, and no step fails because of a bound.

Main result: `Requirement.build_alike`.
-/

namespace SemverRange

/-- Both steps succeed, or both fail for the same reason. -/
def Alike {ε α β : Type} : Except ε α → Except ε β → Prop
  | .ok _, .ok _ => True
  | .error e, .error e' => e = e'
  | _, _ => False

namespace Alike

variable {ε α β γ δ : Type}

theorem refl (x : Except ε α) : Alike x x := by
  cases x with
  | error e => rfl
  | ok a => trivial

theorem bind {x : Except ε α} {y : Except ε β} {f : α → Except ε γ} {g : β → Except ε δ}
    (h : Alike x y) (hfg : ∀ a b, Alike (f a) (g b)) : Alike (x >>= f) (y >>= g) := by
  cases x with
  | error e =>
    cases y with
    | error e' => exact h
    | ok b => exact h.elim
  | ok a =>
    cases y with
    | error e' => exact h.elim
    | ok b => exact hfg a b

theorem after (x : Except ε α) {f : α → Except ε β} {g : α → Except ε γ}
    (hfg : ∀ a, Alike (f a) (g a)) : Alike (x >>= f) (x >>= g) := by
  cases x with
  | error e => rfl
  | ok a => exact hfg a

theorem mapM {f : α → Except ε β} {g : α → Except ε γ} (h : ∀ a, Alike (f a) (g a))
    (xs : List α) : Alike (xs.mapM f) (xs.mapM g) := by
  induction xs with
  | nil => trivial
  | cons x xs ih =>
    rw [List.mapM_cons, List.mapM_cons]
    exact (h x).bind fun _ _ => ih.bind fun _ _ => trivial

theorem exists_ok {x : Except ε α} {y : Except ε β} (h : Alike x y) {a : α} (hx : x = .ok a) :
    ∃ b, y = .ok b := by
  subst hx
  cases y with
  | error e => exact h.elim
  | ok b => exact ⟨b, rfl⟩

end Alike

section

variable (flag flag' : Bool)

theorem Partial.lower_alike (p : Partial) : Alike (p.lower flag) (p.lower flag') :=
  Alike.after p.lowest fun _ => trivial

theorem Comparator.band_alike (c : Comparator) (p : Partial) :
    Alike (c.band p flag) (c.band p flag') := by
  have hlower := p.lower_alike flag flag'
  cases c with
  | eq =>
    unfold band
    by_cases hexact : p.isExact = true
    · simp only [if_pos hexact]
      exact Alike.refl _
    · simp only [if_neg hexact]
      exact hlower.bind fun _ _ => Alike.after p.bandTop fun _ => trivial
  | gt | le =>
    unfold band
    by_cases hexact : p.isExact = true
    · simp only [if_pos hexact]
      exact Alike.refl _
    · simp only [if_neg hexact]
      exact Alike.after p.bandTop fun _ => trivial
  | lt | ge => exact hlower.bind fun _ _ => trivial
  | tilde => exact hlower.bind fun _ _ => Alike.after p.tildeTop fun _ => trivial
  | caret => exact hlower.bind fun _ _ => Alike.after p.caretTop fun _ => trivial

theorem Comparator.interval_alike (c : Comparator) (p : Partial) :
    Alike (c.interval p flag) (c.interval p flag') := by
  unfold interval
  by_cases hmajor : Partial.isWildcard p.major = true
  · simp only [if_pos hmajor]
    apply Alike.after p.check
    intro _
    cases c <;> trivial
  · simp only [if_neg hmajor]
    exact c.band_alike flag flag' p

theorem Interval.lowEnd_alike (low : Partial) :
    Alike (lowEnd low flag) (lowEnd low flag') := by
  unfold lowEnd
  by_cases hmajor : Partial.isWildcard low.major = true
  · simp only [if_pos hmajor]
    exact Alike.after low.check fun _ => trivial
  · simp only [if_neg hmajor]
    exact low.lower_alike flag flag'

theorem Interval.between_alike (low high : Partial) :
    Alike (between low high flag) (between low high flag') := by
  unfold between
  apply (lowEnd_alike flag flag' low).bind
  intro _ _
  by_cases hmajor : Partial.isWildcard high.major = true
  · simp only [if_pos hmajor]
    exact Alike.after high.check fun _ => trivial
  · simp only [if_neg hmajor]
    by_cases hexact : high.isExact = true
    · simp only [if_pos hexact]
      exact Alike.after high.lowest fun _ => trivial
    · simp only [if_neg hexact]
      exact Alike.after high.bandTop fun _ => trivial

theorem Comparison.leaf_alike (c : Comparison) : Alike (c.leaf flag) (c.leaf flag') :=
  Alike.after (Comparator.read c.symbol) fun k =>
    ((k.getD .eq).interval_alike flag flag' c.version).bind fun _ _ => trivial

theorem HyphenRange.leaf_alike (r : HyphenRange) : Alike (r.leaf flag) (r.leaf flag') :=
  (Interval.between_alike flag flag' r.low r.high).bind fun _ _ => trivial

theorem Segment.clause_alike (s : Segment) : Alike (s.clause flag) (s.clause flag') := by
  apply (Alike.mapM (Comparison.leaf_alike flag flag') s.comparisons).bind
  intro _ _
  exact (Alike.mapM (HyphenRange.leaf_alike flag flag') s.hyphenRanges).bind fun _ _ => trivial

theorem Outline.clause_alike (o : Outline) : Alike (o.clause flag) (o.clause flag') :=
  (Alike.mapM (Segment.clause_alike flag flag') o.segments).bind fun _ _ => trivial

/-- A text that can be built with the flag can be built without it, and one that cannot fails for
the same reason. -/
theorem Requirement.build_alike (raw : String) : Alike (build raw flag) (build raw flag') :=
  Alike.after (Outline.parse raw) fun o => (o.clause_alike flag flag').bind fun _ _ => trivial

end

end SemverRange
