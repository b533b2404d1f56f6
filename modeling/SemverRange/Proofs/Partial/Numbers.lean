import SemverRange.Proofs.Partial.Notation
import SemverRange.Proofs.Version.Order

/-!
# The numbers of a partial version

**Values.** A component that can be spelled is a wildcard or a plain numeral, so its number is
the value of its digits whenever it has one (`number_eq`), and the triple of a partial version is
its `base`, with zeros for wildcards.

**Shape.** The partial versions that pass the check are of four kinds: no number, a major, major
and minor, or all three (`Shape`). Only the last kind has qualifiers.

**Bounds.** Each bound is a function of these: the bottom is the base with the qualifiers
(`bottom`), the tops are releases one step further on.

Main results: `shape_of_check` and the lemmas `lowest_eq_ok` to `caretTop_eq_ok`.
-/

namespace SemverRange

theorem exists_ok_of_bind {ε α β : Type} {x : Except ε α} {f : α → Except ε β} {b : β}
    (h : x >>= f = .ok b) : ∃ a, x = .ok a ∧ f a = .ok b := by
  cases x with
  | error e => exact absurd h (by simp [bind, Except.bind])
  | ok a => exact ⟨a, rfl, h⟩

namespace Partial

/-! ## Values -/

/-- The value of a component's digits; a wildcard counts as zero. -/
def value (component : Option String) : Int :=
  if isWildcard component then 0 else Numeral.value (component.getD "").toList

/-- The triple of the values. -/
def base (p : Partial) : Triple := ⟨value p.major, value p.minor, value p.patch⟩

/-- The version with the values and the qualifiers of `p`. -/
def bottom (p : Partial) : Version := ⟨p.base, p.prerelease, p.build⟩

theorem value_nonneg (component : Option String) : 0 ≤ value component := by
  unfold value
  split
  · exact Int.le_refl 0
  · exact Int.natCast_nonneg _

theorem value_of_isWildcard {component : Option String} (h : isWildcard component = true) :
    value component = 0 := by
  rw [value, if_pos h]

theorem isNumeral_of_componentText {s : String} (h : ComponentText s.toList)
    (hw : isWildcard (some s) = false) : Numeral.isNumeral s.toList = true := by
  rcases hs : s.toList with _ | ⟨c, cs⟩
  · exact absurd hs h.ne_nil
  · rw [hs] at h
    cases h with
    | zero => decide
    | number h1 h9 hds =>
      simp only [Numeral.isNumeral, List.isEmpty_cons, Bool.not_false, Bool.true_and,
        List.all_cons, Bool.and_eq_true, List.all_eq_true]
      exact ⟨isDigit_of_le h1 h9, hds⟩
    | wildcard hc =>
      have htrue : isWildcard (some s) = true := by
        rw [isWildcard, hs]
        rcases hc with rfl | rfl | rfl <;> decide
      rw [htrue] at hw
      exact absurd hw (by decide)

theorem isWildcard_of_isNumeral {s : String} (h : Numeral.isNumeral s.toList = true) :
    isWildcard (some s) = false := by
  have htrim : Text.trim s.toList = s.toList := Text.stripBy_eq_self fun c hc =>
    Text.isBlank_of_isDigit (Numeral.forall_mem_of_isNumeral h c hc)
  rw [isWildcard, htrim, ← Bool.not_eq_true, List.contains_iff_mem]
  intro hmem
  have hnone : [[], ['x'], ['X'], ['*']].all (!Numeral.isNumeral ·) = true := by decide
  have hnot := List.all_eq_true.1 hnone _ hmem
  rw [h] at hnot
  exact absurd hnot (by decide)

/-- The number of a component is its value, unless it has too many digits. -/
theorem number_eq {component : Option String}
    (h : ∀ s, component = some s → ComponentText s.toList) :
    number component =
      if isWildcard component = true ∨ (component.getD "").toList.length ≤ Numeral.limit then
        .ok (value component)
      else .error .unreadableNumber := by
  cases hw : isWildcard component with
  | true => simp [number, hw, value]
  | false =>
    cases component with
    | none => exact absurd hw (by simp [isWildcard])
    | some s =>
      have hnumeral := isNumeral_of_componentText (h s rfl) hw
      have hread : Numeral.readSigned? s.toList = (Numeral.read? s.toList).map Int.ofNat :=
        Numeral.readSigned?_of_isNumeral hnumeral
      unfold number
      simp only [hw, Bool.false_eq_true, if_false, Option.getD_some, hread, false_or]
      by_cases hlimit : s.toList.length ≤ Numeral.limit
      · simp [Numeral.read?, hnumeral, hlimit, value, hw]
      · simp [Numeral.read?, hlimit]

theorem eq_value_of_number {component : Option String} {n : Int}
    (h : ∀ s, component = some s → ComponentText s.toList) (hn : number component = .ok n) :
    n = value component := by
  rw [number_eq h] at hn
  split at hn
  · exact (Except.ok.inj hn).symm
  · exact absurd hn (by simp)

/-! ## Shape -/

/-- The kinds of partial versions that stand for a band. -/
inductive Shape (p : Partial) : Prop
  | any (major : isWildcard p.major = true) (minor : isWildcard p.minor = true)
      (patch : isWildcard p.patch = true) (prerelease : p.prerelease = []) (build : p.build = [])
  | major (major : isWildcard p.major = false) (minor : isWildcard p.minor = true)
      (patch : isWildcard p.patch = true) (prerelease : p.prerelease = []) (build : p.build = [])
  | minor (major : isWildcard p.major = false) (minor : isWildcard p.minor = false)
      (patch : isWildcard p.patch = true) (prerelease : p.prerelease = []) (build : p.build = [])
  | exact (major : isWildcard p.major = false) (minor : isWildcard p.minor = false)
      (patch : isWildcard p.patch = false)

theorem shape_of_check {p : Partial} (h : p.check = .ok ()) : p.Shape := by
  have hs := check_eq_ok_iff.1 h
  unfold isMisshapen at hs
  cases hmajor : isWildcard p.major <;> cases hminor : isWildcard p.minor <;>
    cases hpatch : isWildcard p.patch <;> simp [hmajor, hminor, hpatch] at hs
  · exact .exact hmajor hminor hpatch
  · exact .minor hmajor hminor hpatch hs.1 hs.2
  · exact .major hmajor hminor hpatch hs.1 hs.2
  · exact .any hmajor hminor hpatch hs.1 hs.2

theorem isExact_iff {p : Partial} : p.isExact = true ↔
    isWildcard p.major = false ∧ isWildcard p.minor = false ∧ isWildcard p.patch = false := by
  simp [isExact, and_assoc]

theorem Shape.bare {p : Partial} (hs : p.Shape) (h : p.isExact = false) :
    p.prerelease = [] ∧ p.build = [] := by
  cases hs with
  | any _ _ _ hp hb => exact ⟨hp, hb⟩
  | major _ _ _ hp hb => exact ⟨hp, hb⟩
  | minor _ _ _ hp hb => exact ⟨hp, hb⟩
  | exact hmajor hminor hpatch =>
    rw [isExact_iff.2 ⟨hmajor, hminor, hpatch⟩] at h
    exact absurd h (by decide)

theorem Shape.bottom_of_not_isExact {p : Partial} (hs : p.Shape) (h : p.isExact = false) :
    p.bottom = Version.release p.base := by
  obtain ⟨hpre, hbuild⟩ := hs.bare h
  rw [bottom, hpre, hbuild, Version.release]

/-! ## Bounds -/

theorem Spellable.text_of_mem {p : Partial} (hp : p.Spellable) :
    (∀ s, some p.major = some s → ComponentText s.toList) ∧
      (∀ s, p.minor = some s → ComponentText s.toList) ∧
      ∀ s, p.patch = some s → ComponentText s.toList := by
  refine ⟨fun s hs => ?_, fun s hs => ?_, fun s hs => ?_⟩
  · exact hp.component s (by simp [components, Option.some.inj hs])
  · exact hp.component s (by simp [components, hs])
  · exact hp.component s (by simp [components, hs])

theorem triple_eq_ok {p : Partial} (hp : p.Spellable) {t : Triple} (h : p.triple = .ok t) :
    p.Shape ∧ t = p.base := by
  obtain ⟨hmajor, hminor, hpatch⟩ := hp.text_of_mem
  obtain ⟨_, hcheck, h⟩ := exists_ok_of_bind h
  obtain ⟨a, ha, h⟩ := exists_ok_of_bind h
  obtain ⟨b, hb, h⟩ := exists_ok_of_bind h
  obtain ⟨c, hc, h⟩ := exists_ok_of_bind h
  refine ⟨shape_of_check hcheck, ?_⟩
  rw [← Except.ok.inj h, base, eq_value_of_number hmajor ha, eq_value_of_number hminor hb,
    eq_value_of_number hpatch hc]

theorem qualified_eq_ok {p : Partial} (hs : p.Shape) {t : Triple} {v : Version}
    (h : p.qualified t = .ok v) : v = ⟨t, p.prerelease, p.build⟩ := by
  unfold qualified at h
  split at h
  · split at h
    · rename_i w hw
      unfold Version.ofParts? at hw
      split at hw
      · rw [← Except.ok.inj h, Option.some.inj hw]
      · exact absurd hw (by simp)
    · exact absurd h (by simp)
  · rename_i hexact
    obtain ⟨hpre, hbuild⟩ := hs.bare (by simpa using hexact)
    rw [← Except.ok.inj h, hpre, hbuild, Version.release]

theorem lowest_eq_ok {p : Partial} (hp : p.Spellable) {v : Version} (h : p.lowest = .ok v) :
    p.Shape ∧ v = p.bottom := by
  obtain ⟨t, ht, h⟩ := exists_ok_of_bind h
  obtain ⟨hs, rfl⟩ := triple_eq_ok hp ht
  exact ⟨hs, qualified_eq_ok hs h⟩

/-- The lower bound: the bottom, floored unless it was written out in full. -/
def floorBottom (p : Partial) (includePrerelease : Bool) : Version :=
  if p.isExact then p.bottom else p.bottom.floor includePrerelease

theorem lower_eq_ok {p : Partial} (hp : p.Spellable) {flag : Bool} {v : Version}
    (h : p.lower flag = .ok v) : p.Shape ∧ v = p.floorBottom flag := by
  obtain ⟨w, hw, h⟩ := exists_ok_of_bind h
  obtain ⟨hs, rfl⟩ := lowest_eq_ok hp hw
  exact ⟨hs, (Except.ok.inj h).symm⟩

theorem bandTop_eq_ok {p : Partial} (hp : p.Spellable) (hexact : p.isExact = false) {v : Version}
    (h : p.bandTop = .ok v) : p.Shape ∧ v = Version.release (p.bandEnd p.base) := by
  obtain ⟨t, ht, h⟩ := exists_ok_of_bind h
  obtain ⟨hs, rfl⟩ := triple_eq_ok hp ht
  obtain ⟨hpre, hbuild⟩ := hs.bare hexact
  have hv := qualified_eq_ok hs h
  rw [hpre, hbuild] at hv
  exact ⟨hs, hv⟩

/-- The triple just above the versions that share major and, if given, minor with `p`. -/
def tildeEnd (p : Partial) : Triple :=
  if isWildcard p.minor then ⟨p.base.major + 1, 0, 0⟩ else ⟨p.base.major, p.base.minor + 1, 0⟩

theorem tildeTop_eq_ok {p : Partial} (hp : p.Spellable) {v : Version} (h : p.tildeTop = .ok v) :
    v = Version.release p.tildeEnd := by
  obtain ⟨hmajor, hminor, -⟩ := hp.text_of_mem
  obtain ⟨_, -, h⟩ := exists_ok_of_bind h
  obtain ⟨a, ha, h⟩ := exists_ok_of_bind h
  obtain ⟨b, hb, h⟩ := exists_ok_of_bind h
  rw [eq_value_of_number hmajor ha, eq_value_of_number hminor hb] at h
  exact (Except.ok.inj h).symm

theorem caretTop_eq_ok {p : Partial} (hp : p.Spellable) {v : Version} (h : p.caretTop = .ok v) :
    v = Version.release (p.caretEnd p.base) := by
  obtain ⟨t, ht, h⟩ := exists_ok_of_bind h
  obtain ⟨-, rfl⟩ := triple_eq_ok hp ht
  exact (Except.ok.inj h).symm

end Partial

end SemverRange
