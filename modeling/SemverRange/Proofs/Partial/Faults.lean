import SemverRange.Band
import SemverRange.Proofs.Partial.Numbers

/-!
# What is wrong with a partial version

**The fault of a step** (`failure?`). Steps in sequence have the fault of the first that fails, so
the fault of a whole is the head of a list of faults in the order in which they are noticed.

**The faults** (`Partial.faults`). A misshapen partial version has its shape for a fault and no
other, since numbers and identifiers are only looked at once the shape is settled. Otherwise a
number may have too many digits, and an identifier of an exact version may be padded with zeros or
have too many digits.

**Bounds.** Bottom and band top notice all faults. The tops of a tilde and a caret notice fewer,
but are only computed after a bottom. A wildcard in the major place leaves nothing beyond the shape
to be wrong.

Main results: `Comparator.failure?_interval` and `Interval.failure?_between`. Every comparator and
either end of a hyphen range notice the same faults.
-/

namespace SemverRange

/-! ## The fault of a step -/

section

variable {ε α β : Type}

/-- The error of a step that fails. -/
def failure? : Except ε α → Option ε
  | .ok _ => none
  | .error e => some e

theorem failure?_eq_some_iff {x : Except ε α} {e : ε} : failure? x = some e ↔ x = .error e := by
  cases x <;> simp [failure?]

theorem failure?_eq_none_iff {x : Except ε α} : failure? x = none ↔ ∃ a, x = .ok a := by
  cases x <;> simp [failure?]

/-- The fault of a sequence is that of its first step, or else that of its second. -/
theorem failure?_bind {x : Except ε α} {f : α → Except ε β} {o : Option ε}
    (h : ∀ a, x = .ok a → failure? (f a) = o) : failure? (x >>= f) = (failure? x).or o := by
  cases x with
  | error e => rfl
  | ok a => exact h a rfl

theorem failure?_bind_of_none {x : Except ε α} {f : α → Except ε β}
    (h : ∀ a, x = .ok a → failure? (f a) = none) : failure? (x >>= f) = failure? x := by
  rw [failure?_bind h, Option.or_none]

theorem failure?_mapM {f : α → Except ε β} {g : α → List ε} {xs : List α}
    (h : ∀ x ∈ xs, failure? (f x) = (g x).head?) :
    failure? (xs.mapM f) = (xs.flatMap g).head? := by
  induction xs with
  | nil => rfl
  | cons x xs ih =>
    have hx := h x List.mem_cons_self
    have hxs := ih fun y hy => h y (List.mem_cons_of_mem x hy)
    rw [List.mapM_cons, List.flatMap_cons, List.head?_append, ← hx, ← hxs]
    apply failure?_bind
    intro _ _
    exact failure?_bind_of_none fun _ _ => rfl

end

namespace Identifier

/-- A numeral of two or more digits of which the first is zero. -/
def Padded (id : String) : Prop :=
  isNumeric id = true ∧ 2 ≤ id.toList.length ∧ id.toList.head? = some '0'

/-- A numeral of more digits than can be read. -/
def Oversized (id : String) : Prop := isNumeric id = true ∧ Numeral.limit < id.toList.length

instance (id : String) : Decidable (Padded id) :=
  inferInstanceAs (Decidable (_ ∧ _))

instance (id : String) : Decidable (Oversized id) :=
  inferInstanceAs (Decidable (_ ∧ _))

theorem hasLeadingZero_iff {id : String} : hasLeadingZero id = true ↔ Padded id := by
  simp only [hasLeadingZero, Padded, Bool.and_eq_true, beq_iff_eq, bne_iff_ne]
  constructor
  · rintro ⟨⟨hnumeric, hzero⟩, hlength⟩
    have hne : id.toList.length ≠ 0 := by
      intro hnil
      rw [List.length_eq_zero_iff.1 hnil] at hzero
      exact absurd hzero (by simp)
    exact ⟨hnumeric, by omega, hzero⟩
  · rintro ⟨hnumeric, hlength, hzero⟩
    exact ⟨⟨hnumeric, hzero⟩, by omega⟩

/-- An identifier that can be spelled is readable unless it has too many digits. -/
theorem isReadable_iff {id : String} (h : Written.isIdentifier id.toList = true) :
    isReadable id = true ↔ ¬ Oversized id := by
  simp only [Written.isIdentifier, Bool.and_eq_true, List.all_eq_true] at h
  obtain ⟨hne, hchars⟩ := h
  unfold isReadable Oversized
  by_cases hnumeric : isNumeric id = true
  · simp [hnumeric]
  · simp only [hnumeric, Bool.false_eq_true, if_false, hne, Bool.true_and, List.all_eq_true,
      decide_eq_true_eq, false_and, not_false_eq_true, iff_true]
    intro c hc
    have hrange := Written.toNat_of_isIdentifierChar (hchars c hc)
    omega

end Identifier

/-! ## Identifiers that make a version -/

namespace Version

section

variable {prerelease build : List String}
  (hprerelease : ∀ id ∈ prerelease, Written.isIdentifier id.toList = true)
  (hbuild : ∀ id ∈ build, Written.isIdentifier id.toList = true)
include hprerelease hbuild

/-- Identifiers make a version if none is too long, and none of the pre-release is padded. -/
theorem ofParts?_eq_some_iff {t : Triple} {v : Version} :
    ofParts? t prerelease build = some v ↔
      (∀ id ∈ prerelease, ¬ Identifier.Padded id ∧ ¬ Identifier.Oversized id) ∧
        (∀ id ∈ build, ¬ Identifier.Oversized id) ∧ v = ⟨t, prerelease, build⟩ := by
  have hpre : ∀ id ∈ prerelease,
      ((Identifier.isReadable id && !Identifier.hasLeadingZero id) = true ↔
        ¬ Identifier.Padded id ∧ ¬ Identifier.Oversized id) := by
    intro id hid
    rw [Bool.and_eq_true, Identifier.isReadable_iff (hprerelease id hid), Bool.not_eq_true',
      ← Bool.not_eq_true, Identifier.hasLeadingZero_iff]
    exact and_comm
  have hbld : ∀ id ∈ build, (Identifier.isReadable id = true ↔ ¬ Identifier.Oversized id) :=
    fun id hid => Identifier.isReadable_iff (hbuild id hid)
  rw [← forall₂_congr hpre, ← forall₂_congr hbld, ← List.all_eq_true, ← List.all_eq_true,
    ← and_assoc, ← Bool.and_eq_true, ofParts?]
  split <;> simp [*, eq_comm]

theorem ofParts?_eq_none_iff (t : Triple) : ofParts? t prerelease build = none ↔
    (∃ id ∈ prerelease, Identifier.Padded id ∨ Identifier.Oversized id) ∨
      ∃ id ∈ build, Identifier.Oversized id := by
  rw [← not_iff_not, ← ne_eq, Option.ne_none_iff_exists']
  simp only [ofParts?_eq_some_iff hprerelease hbuild, exists_and_left, exists_eq, and_true, not_or,
    not_exists, not_and]

end

end Version

namespace Partial

/-! ## Faults -/

/-- The component is a wildcard or has at most `k` digits. -/
def Fits (k : Nat) (component : Option String) : Prop :=
  isWildcard component = true ∨ (component.getD "").toList.length ≤ k

/-- No component has more than `k` digits. -/
def Within (p : Partial) (k : Nat) : Prop := Fits k p.major ∧ Fits k p.minor ∧ Fits k p.patch

theorem Within.mono {p : Partial} {k l : Nat} (hkl : k ≤ l) (h : p.Within k) : p.Within l := by
  have hfits : ∀ {component : Option String}, Fits k component → Fits l component :=
    fun hfits => hfits.imp_right fun hle => Nat.le_trans hle hkl
  exact ⟨hfits h.1, hfits h.2.1, hfits h.2.2⟩

/-- The wildcards are the last of the three components. -/
def WildcardsLast (p : Partial) : Prop :=
  (isWildcard p.major = true → isWildcard p.minor = true) ∧
    (isWildcard p.minor = true → isWildcard p.patch = true)

/-- The wildcards are not the last components, or come together with qualifiers. -/
def Misshapen (p : Partial) : Prop :=
  ¬ p.WildcardsLast ∨ (p.isExact = false ∧ (p.prerelease ≠ [] ∨ p.build ≠ []))

/-- A complete version with a numeric identifier that is padded or too long; in the build it may
be padded. -/
def Misnamed (p : Partial) : Prop :=
  p.isExact = true ∧ ((∃ id ∈ p.prerelease, Identifier.Padded id ∨ Identifier.Oversized id) ∨
    ∃ id ∈ p.build, Identifier.Oversized id)

/-- Of no acceptable shape, or with an unacceptable identifier. -/
def Bad (p : Partial) : Prop := p.Misshapen ∨ p.Misnamed

instance (k : Nat) (component : Option String) : Decidable (Fits k component) :=
  inferInstanceAs (Decidable (_ ∨ _))

instance (p : Partial) (k : Nat) : Decidable (p.Within k) :=
  inferInstanceAs (Decidable (_ ∧ _))

instance (p : Partial) : Decidable p.WildcardsLast :=
  inferInstanceAs (Decidable (_ ∧ _))

instance (p : Partial) : Decidable p.Misshapen :=
  inferInstanceAs (Decidable (_ ∨ _))

instance (p : Partial) : Decidable p.Misnamed :=
  inferInstanceAs (Decidable (_ ∧ _))

/-- All that is wrong with a partial version, in the order in which it is noticed. -/
def faults (p : Partial) : List RequirementError :=
  if p.Misshapen then [.malformed p.render]
  else (if p.Within Numeral.limit then [] else [.unreadableNumber]) ++
    (if p.Misnamed then [.malformed p.render] else [])

theorem isMisshapen_iff {p : Partial} : p.isMisshapen = true ↔ p.Misshapen := by
  unfold isMisshapen Misshapen WildcardsLast isExact
  cases isWildcard p.major <;> cases isWildcard p.minor <;> cases isWildcard p.patch <;>
    simp [Decidable.or_iff_not_imp_left]

theorem faults_eq_nil_iff {p : Partial} :
    p.faults = [] ↔ ¬ p.Misshapen ∧ p.Within Numeral.limit ∧ ¬ p.Misnamed := by
  unfold faults
  by_cases hshape : p.Misshapen
  · simp [hshape]
  · simp [hshape]

theorem shape_of_faults_eq_nil {p : Partial} (h : p.faults = []) : p.Shape := by
  have hshape : ¬ p.Misshapen := (faults_eq_nil_iff.1 h).1
  rw [← isMisshapen_iff, Bool.not_eq_true] at hshape
  exact shape_of_check (check_eq_ok_iff.2 hshape)

/-- Where no number is too long, nothing is wrong with a partial version unless it is bad. -/
theorem faults_eq_nil_iff_of_within {p : Partial} (h : p.Within Numeral.limit) :
    p.faults = [] ↔ ¬ p.Bad := by
  rw [faults_eq_nil_iff, Bad, not_or]
  simp only [h, true_and]

theorem unreadableNumber_not_mem_faults {p : Partial} (h : p.Within Numeral.limit) :
    .unreadableNumber ∉ p.faults := by
  unfold faults
  by_cases hshape : p.Misshapen
  · simp [hshape]
  · simp [hshape, h]

theorem faults_of_isWildcard {p : Partial} (hmajor : isWildcard p.major = true) :
    p.faults = if p.Misshapen then [.malformed p.render] else [] := by
  unfold faults
  by_cases hshape : p.Misshapen
  · rw [if_pos hshape, if_pos hshape]
  · have hlast : p.WildcardsLast := Decidable.not_not.1 fun h => hshape (.inl h)
    have hminor := hlast.1 hmajor
    have hpatch := hlast.2 hminor
    have hwithin : p.Within Numeral.limit := ⟨.inl hmajor, .inl hminor, .inl hpatch⟩
    have hnamed : ¬ p.Misnamed := by
      rintro ⟨hexact, -⟩
      rw [isExact_iff, hmajor] at hexact
      exact absurd hexact.1 (by decide)
    rw [if_neg hshape, if_neg hshape, if_pos hwithin, if_neg hnamed, List.append_nil]

/-! ## Which step notices a fault -/

theorem failure?_check (p : Partial) :
    failure? p.check = if p.Misshapen then some (.malformed p.render) else none := by
  unfold check
  by_cases hshape : p.Misshapen
  · rw [if_pos (isMisshapen_iff.2 hshape), if_pos hshape]
    rfl
  · rw [if_neg fun h => hshape (isMisshapen_iff.1 h), if_neg hshape]
    rfl

theorem failure?_check_of_isWildcard {p : Partial} (hmajor : isWildcard p.major = true) :
    failure? p.check = p.faults.head? := by
  rw [failure?_check, faults_of_isWildcard hmajor]
  split <;> rfl

theorem failure?_number {component : Option String}
    (h : ∀ s, component = some s → ComponentText s.toList) :
    failure? (number component) =
      if Fits Numeral.limit component then none else some .unreadableNumber := by
  rw [number_eq h, apply_ite failure?]
  rfl

section

variable {p : Partial} (hp : p.Spellable)
include hp

/-- The numbers are looked at once the shape is settled. -/
theorem failure?_triple : failure? p.triple =
    if p.Misshapen then some (.malformed p.render)
    else if p.Within Numeral.limit then none else some .unreadableNumber := by
  obtain ⟨hmajor, hminor, hpatch⟩ := hp.text_of_mem
  have hnumbers : ∀ a, failure? (do
      return (⟨a, ← number p.minor, ← number p.patch⟩ : Triple)) =
        (failure? (number p.minor)).or (failure? (number p.patch)) := by
    intro a
    apply failure?_bind
    intro b _
    exact failure?_bind_of_none fun _ _ => rfl
  have htriple : failure? p.triple = (failure? p.check).or ((failure? (number p.major)).or
      ((failure? (number p.minor)).or (failure? (number p.patch)))) :=
    failure?_bind fun _ _ => failure?_bind fun a _ => hnumbers a
  rw [htriple, failure?_check, failure?_number hmajor, failure?_number hminor,
    failure?_number hpatch]
  unfold Within
  by_cases hshape : p.Misshapen
  · simp [hshape]
  · by_cases h : Fits Numeral.limit p.major <;> by_cases h' : Fits Numeral.limit p.minor <;>
      simp [hshape, h, h']

/-- The identifiers of an exact version are looked at last. -/
theorem failure?_qualified (t : Triple) : failure? (p.qualified t) =
    if p.Misnamed then some (.malformed p.render) else none := by
  have hparts := Version.ofParts?_eq_none_iff hp.prerelease hp.build t
  unfold qualified
  by_cases hexact : p.isExact = true
  · rw [if_pos hexact]
    by_cases hnamed : p.Misnamed
    · rw [if_pos hnamed, hparts.2 hnamed.2]
      rfl
    · obtain ⟨v, hv⟩ := Option.ne_none_iff_exists'.1 fun h => hnamed ⟨hexact, hparts.1 h⟩
      rw [if_neg hnamed, hv]
      rfl
  · rw [if_neg hexact, if_neg fun h => hexact h.1]
    rfl

/-- A version with the qualifiers of `p` notices all faults, whatever its triple. -/
theorem failure?_qualified_triple (f : Triple → Triple) :
    failure? (do p.qualified (f (← p.triple))) = p.faults.head? := by
  rw [failure?_bind fun t _ => failure?_qualified hp (f t), failure?_triple hp]
  unfold faults
  by_cases hshape : p.Misshapen
  · simp [hshape]
  · by_cases hwithin : p.Within Numeral.limit
    · by_cases hnamed : p.Misnamed <;> simp [hshape, hwithin, hnamed]
    · simp [hshape, hwithin]

theorem failure?_lowest : failure? p.lowest = p.faults.head? := failure?_qualified_triple hp id

theorem failure?_bandTop : failure? p.bandTop = p.faults.head? :=
  failure?_qualified_triple hp p.bandEnd

theorem failure?_lower (includePrerelease : Bool) :
    failure? (p.lower includePrerelease) = p.faults.head? := by
  rw [← failure?_lowest hp]
  exact failure?_bind_of_none fun _ _ => rfl

theorem faults_eq_nil_of_lower {flag : Bool} {v : Version} (h : p.lower flag = .ok v) :
    p.faults = [] := by
  rw [← List.head?_eq_none_iff, ← failure?_lower hp flag, h]
  rfl

theorem failure?_tildeTop {flag : Bool} {v : Version} (h : p.lower flag = .ok v) :
    failure? p.tildeTop = none := by
  obtain ⟨hmajor, hminor, -⟩ := hp.text_of_mem
  obtain ⟨hshape, ⟨hfitsMajor, hfitsMinor, -⟩, -⟩ :=
    faults_eq_nil_iff.1 (faults_eq_nil_of_lower hp h)
  have htop : failure? p.tildeTop = (failure? p.check).or
      ((failure? (number p.major)).or (failure? (number p.minor))) :=
    failure?_bind fun _ _ => failure?_bind fun _ _ => failure?_bind_of_none fun _ _ => rfl
  rw [htop, failure?_check, failure?_number hmajor, failure?_number hminor, if_neg hshape,
    if_pos hfitsMajor, if_pos hfitsMinor]
  rfl

theorem failure?_caretTop {flag : Bool} {v : Version} (h : p.lower flag = .ok v) :
    failure? p.caretTop = none := by
  obtain ⟨hshape, hwithin, -⟩ := faults_eq_nil_iff.1 (faults_eq_nil_of_lower hp h)
  have htop : failure? p.caretTop = failure? p.triple := failure?_bind_of_none fun _ _ => rfl
  rw [htop, failure?_triple hp, if_neg hshape, if_pos hwithin]

end

end Partial

/-! ## Comparators and hyphen ranges -/

theorem Comparator.failure?_band {p : Partial} (hp : p.Spellable) (c : Comparator) (flag : Bool) :
    failure? (c.band p flag) = p.faults.head? := by
  have hlower := Partial.failure?_lower hp flag
  cases c with
  | eq =>
    unfold band
    by_cases hexact : p.isExact = true
    · simp only [if_pos hexact]
      rw [← Partial.failure?_lowest hp]
      exact failure?_bind_of_none fun _ _ => rfl
    · simp only [if_neg hexact]
      rw [← hlower]
      apply failure?_bind_of_none
      intro v hv
      have htop : failure? p.bandTop = none := by
        rw [Partial.failure?_bandTop hp, Partial.faults_eq_nil_of_lower hp hv]
        rfl
      rw [← htop]
      exact failure?_bind_of_none fun _ _ => rfl
  | gt | le =>
    unfold band
    by_cases hexact : p.isExact = true
    · simp only [if_pos hexact]
      rw [← Partial.failure?_lowest hp]
      exact failure?_bind_of_none fun _ _ => rfl
    · simp only [if_neg hexact]
      rw [← Partial.failure?_bandTop hp]
      exact failure?_bind_of_none fun _ _ => rfl
  | lt | ge =>
    rw [← hlower]
    exact failure?_bind_of_none fun _ _ => rfl
  | tilde =>
    rw [← hlower]
    apply failure?_bind_of_none
    intro v hv
    rw [← Partial.failure?_tildeTop hp hv]
    exact failure?_bind_of_none fun _ _ => rfl
  | caret =>
    rw [← hlower]
    apply failure?_bind_of_none
    intro v hv
    rw [← Partial.failure?_caretTop hp hv]
    exact failure?_bind_of_none fun _ _ => rfl

/-- Every comparator notices the faults of its partial version, in the same order. -/
theorem Comparator.failure?_interval {p : Partial} (hp : p.Spellable) (c : Comparator)
    (flag : Bool) : failure? (c.interval p flag) = p.faults.head? := by
  unfold interval
  by_cases hmajor : Partial.isWildcard p.major = true
  · simp only [if_pos hmajor]
    rw [← Partial.failure?_check_of_isWildcard hmajor]
    apply failure?_bind_of_none
    intro _ _
    cases c <;> rfl
  · simp only [if_neg hmajor]
    exact c.failure?_band hp flag

namespace Interval

theorem failure?_lowEnd {low : Partial} (hlow : low.Spellable) (flag : Bool) :
    failure? (lowEnd low flag) = low.faults.head? := by
  unfold lowEnd
  by_cases hmajor : Partial.isWildcard low.major = true
  · simp only [if_pos hmajor]
    rw [← Partial.failure?_check_of_isWildcard hmajor]
    exact failure?_bind_of_none fun _ _ => rfl
  · simp only [if_neg hmajor]
    exact Partial.failure?_lower hlow flag

/-- A hyphen range notices the faults of its low end, and then those of its high end. -/
theorem failure?_between {low high : Partial} (hlow : low.Spellable) (hhigh : high.Spellable)
    (flag : Bool) : failure? (between low high flag) = (low.faults ++ high.faults).head? := by
  rw [List.head?_append, ← failure?_lowEnd hlow flag]
  apply failure?_bind
  intro bottom _
  by_cases hmajor : Partial.isWildcard high.major = true
  · simp only [if_pos hmajor]
    rw [← Partial.failure?_check_of_isWildcard hmajor]
    exact failure?_bind_of_none fun _ _ => rfl
  · simp only [if_neg hmajor]
    by_cases hexact : high.isExact = true
    · simp only [if_pos hexact]
      rw [← Partial.failure?_lowest hhigh]
      exact failure?_bind_of_none fun _ _ => rfl
    · simp only [if_neg hexact]
      rw [← Partial.failure?_bandTop hhigh]
      exact failure?_bind_of_none fun _ _ => rfl

end Interval

end SemverRange
