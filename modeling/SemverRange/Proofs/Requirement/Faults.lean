import SemverRange.Proofs.Partial.Faults
import SemverRange.Proofs.Requirement.Build

/-!
# Which requirements cannot be built, and why

**Syntax first.** A text with an alternative that is no segment is malformed as a whole, whatever
else is wrong with it.

**Then the conditions** (`Outline.faults`). The faults are listed as they are noticed: segment by
segment, in each segment the comparisons before the hyphen ranges, in a comparison the symbol
before the version, in a hyphen range the low end before the high end. Building fails for the first
of them.

**Long numbers.** Where no number has more digits than can be read, what is wrong is a symbol that
no comparator has, or a bad partial version (`Segment.Faulty`), and every fault names a text.

Main results: `Requirement.failure?_build` and `Requirement.build_fails`.
-/

namespace SemverRange

/-! ## Faults -/

namespace Comparison

/-- No comparator has the symbol, or the version is bad. -/
def Faulty (c : Comparison) : Prop := c.comparator? = none ∨ c.version.Bad

/-- What is wrong with the symbol, and then with the version. -/
def faults (c : Comparison) : List RequirementError :=
  (if c.comparator? = none then [.malformed (c.symbol.getD "")] else []) ++ c.version.faults

end Comparison

namespace HyphenRange

/-- An end is bad. -/
def Faulty (r : HyphenRange) : Prop := r.low.Bad ∨ r.high.Bad

/-- What is wrong with the low end, and then with the high end. -/
def faults (r : HyphenRange) : List RequirementError := r.low.faults ++ r.high.faults

end HyphenRange

namespace Segment

/-- No number has more than `k` digits. -/
def Within (s : Segment) (k : Nat) : Prop :=
  (∀ c ∈ s.comparisons, c.version.Within k) ∧
    ∀ r ∈ s.hyphenRanges, r.low.Within k ∧ r.high.Within k

/-- A condition is faulty. -/
def Faulty (s : Segment) : Prop :=
  (∃ c ∈ s.comparisons, c.Faulty) ∨ ∃ r ∈ s.hyphenRanges, r.Faulty

/-- What is wrong with the comparisons, and then with the hyphen ranges. -/
def faults (s : Segment) : List RequirementError :=
  s.comparisons.flatMap Comparison.faults ++ s.hyphenRanges.flatMap HyphenRange.faults

instance (s : Segment) (k : Nat) : Decidable (s.Within k) :=
  inferInstanceAs (Decidable (_ ∧ _))

end Segment

namespace Outline

/-- No number has more than `k` digits. -/
def Within (o : Outline) (k : Nat) : Prop := ∀ s ∈ o.segments, s.Within k

/-- What is wrong with the segments. -/
def faults (o : Outline) : List RequirementError := o.segments.flatMap Segment.faults

instance (o : Outline) (k : Nat) : Decidable (o.Within k) :=
  inferInstanceAs (Decidable (∀ s ∈ o.segments, _))

end Outline

/-! ## Faults where numbers are short -/

theorem Comparison.faults_eq_nil_iff {c : Comparison} (h : c.version.Within Numeral.limit) :
    c.faults = [] ↔ ¬ c.Faulty := by
  rw [faults, Faulty, List.append_eq_nil_iff, Partial.faults_eq_nil_iff_of_within h, not_or]
  refine and_congr_left fun _ => ?_
  by_cases hsymbol : c.comparator? = none <;> simp [hsymbol]

theorem HyphenRange.faults_eq_nil_iff {r : HyphenRange} (hlow : r.low.Within Numeral.limit)
    (hhigh : r.high.Within Numeral.limit) : r.faults = [] ↔ ¬ r.Faulty := by
  rw [faults, Faulty, List.append_eq_nil_iff, Partial.faults_eq_nil_iff_of_within hlow,
    Partial.faults_eq_nil_iff_of_within hhigh, not_or]

theorem Segment.faults_eq_nil_iff {s : Segment} (h : s.Within Numeral.limit) :
    s.faults = [] ↔ ¬ s.Faulty := by
  obtain ⟨hcomparisons, hranges⟩ := h
  rw [faults, Faulty, List.append_eq_nil_iff, List.flatMap_eq_nil_iff, List.flatMap_eq_nil_iff,
    not_or]
  simp only [not_exists, not_and]
  apply and_congr
  · exact forall₂_congr fun c hc => Comparison.faults_eq_nil_iff (hcomparisons c hc)
  · exact forall₂_congr fun r hr =>
      HyphenRange.faults_eq_nil_iff (hranges r hr).1 (hranges r hr).2

theorem Outline.faults_eq_nil_iff {o : Outline} (h : o.Within Numeral.limit) :
    o.faults = [] ↔ ∀ s ∈ o.segments, ¬ s.Faulty := by
  rw [faults, List.flatMap_eq_nil_iff]
  exact forall₂_congr fun s hs => Segment.faults_eq_nil_iff (h s hs)

theorem Outline.Within.mono {o : Outline} {k l : Nat} (hkl : k ≤ l) (h : o.Within k) :
    o.Within l := by
  intro s hs
  obtain ⟨hcomparisons, hranges⟩ := h s hs
  exact ⟨fun c hc => (hcomparisons c hc).mono hkl,
    fun r hr => ⟨(hranges r hr).1.mono hkl, (hranges r hr).2.mono hkl⟩⟩

theorem Outline.unreadableNumber_not_mem_faults {o : Outline} (h : o.Within Numeral.limit) :
    .unreadableNumber ∉ o.faults := by
  intro hmem
  obtain ⟨s, hs, hmem⟩ := List.mem_flatMap.1 hmem
  obtain ⟨hcomparisons, hranges⟩ := h s hs
  rcases List.mem_append.1 hmem with hmem | hmem
  · obtain ⟨c, hc, hmem⟩ := List.mem_flatMap.1 hmem
    rcases List.mem_append.1 hmem with hmem | hmem
    · split at hmem <;> simp at hmem
    · exact Partial.unreadableNumber_not_mem_faults (hcomparisons c hc) hmem
  · obtain ⟨r, hr, hmem⟩ := List.mem_flatMap.1 hmem
    rcases List.mem_append.1 hmem with hmem | hmem
    · exact Partial.unreadableNumber_not_mem_faults (hranges r hr).1 hmem
    · exact Partial.unreadableNumber_not_mem_faults (hranges r hr).2 hmem

/-! ## Building fails for the first fault -/

theorem Comparison.failure?_read {c : Comparison} {ops : List Char} (hops : Operators ops)
    (hsymbol : c.symbol = symbol? ops) : failure? (Comparator.read c.symbol) =
      (if c.comparator? = none then [.malformed (c.symbol.getD "")] else []).head? := by
  rw [comparator?, hsymbol]
  cases ops with
  | nil => rfl
  | cons d ds =>
    rw [Comparator.read_of_operators hops]
    simp only [symbol?, List.isEmpty_cons, Bool.false_eq_true, if_false, String.toList_ofList,
      Option.getD_some]
    cases Comparator.ofSymbol? (d :: ds) <;> rfl

theorem Comparison.failure?_leaf {c : Comparison} {ops : List Char} (hops : Operators ops)
    (hsymbol : c.symbol = symbol? ops) (hp : c.version.Spellable) (flag : Bool) :
    failure? (c.leaf flag) = c.faults.head? := by
  rw [faults, List.head?_append, ← failure?_read hops hsymbol]
  apply failure?_bind
  intro k _
  rw [← Comparator.failure?_interval hp (k.getD .eq) flag]
  exact failure?_bind_of_none fun _ _ => rfl

theorem HyphenRange.failure?_leaf {r : HyphenRange} (hlow : r.low.Spellable)
    (hhigh : r.high.Spellable) (flag : Bool) : failure? (r.leaf flag) = r.faults.head? := by
  rw [faults, ← Interval.failure?_between hlow hhigh flag]
  exact failure?_bind_of_none fun _ _ => rfl

theorem Segment.Spelled.failure?_clause {s : Segment} (hs : s.Spelled) (flag : Bool) :
    failure? (s.clause flag) = s.faults.head? := by
  have hcomparisons : failure? (s.comparisons.mapM (·.leaf flag)) =
      (s.comparisons.flatMap Comparison.faults).head? := by
    apply failure?_mapM
    intro c hc
    obtain ⟨hp, ops, hops, hsymbol⟩ := hs.comparison c hc
    exact Comparison.failure?_leaf hops hsymbol hp flag
  have hranges : failure? (s.hyphenRanges.mapM (·.leaf flag)) =
      (s.hyphenRanges.flatMap HyphenRange.faults).head? := by
    apply failure?_mapM
    intro r hr
    obtain ⟨hlow, hhigh⟩ := hs.hyphenRange r hr
    exact HyphenRange.failure?_leaf hlow hhigh flag
  rw [faults, List.head?_append, ← hcomparisons, ← hranges]
  apply failure?_bind
  intro _ _
  exact failure?_bind_of_none fun _ _ => rfl

theorem Outline.failure?_clause {raw : String} {o : Outline} (ho : parse raw = .ok o)
    (flag : Bool) : failure? (o.clause flag) = o.faults.head? := by
  have hsegments : failure? (o.segments.mapM (·.clause flag)) = o.faults.head? :=
    failure?_mapM fun s hs => (spelled_of_parse ho s hs).failure?_clause flag
  rw [← hsegments]
  exact failure?_bind_of_none fun _ _ => rfl

/-! ## Syntax -/

theorem mapM_eq_none_iff {α β : Type} {f : α → Option β} {xs : List α} :
    xs.mapM f = none ↔ ∃ x ∈ xs, f x = none := by
  induction xs with
  | nil => simp
  | cons x xs ih =>
    rw [List.mapM_cons]
    cases hx : f x with
    | none => simp [hx]
    | some y =>
      cases hxs : xs.mapM f with
      | none => simp [hx, ih.1 hxs]
      | some ys =>
        have hsome : ¬ ∃ x ∈ xs, f x = none := fun h => absurd (ih.2 h) (by simp [hxs])
        simpa [hx] using hsome

namespace Outline

/-- A text with an alternative that is no segment is malformed as a whole. -/
theorem parse_eq_error_iff {raw : String} : parse raw = .error (.malformed raw) ↔
    ∃ cs ∈ alternatives raw.toList, Segment.read? cs = none := by
  rw [← mapM_eq_none_iff, parse]
  cases (alternatives raw.toList).mapM Segment.read? <;> simp

theorem eq_malformed_of_parse {raw : String} {e : RequirementError} (h : parse raw = .error e) :
    e = .malformed raw := by
  unfold parse at h
  split at h
  · exact absurd h (by simp)
  · exact (Except.error.inj h).symm

theorem exists_parse_iff {raw : String} : (∃ o, parse raw = .ok o) ↔
    ∀ cs ∈ alternatives raw.toList, Segment.read? cs ≠ none := by
  have hsome : (∃ o, parse raw = .ok o) ↔ (alternatives raw.toList).mapM Segment.read? ≠ none := by
    rw [parse]
    cases (alternatives raw.toList).mapM Segment.read? <;> simp
  rw [hsome, ne_eq, mapM_eq_none_iff]
  simp

end Outline

namespace Requirement

/-- **Building a text that has an outline fails for the first fault of the outline.** -/
theorem failure?_build {raw : String} {o : Outline} (ho : Outline.parse raw = .ok o)
    (flag : Bool) : failure? (build raw flag) = o.faults.head? := by
  have hofOutline : failure? (ofOutline o flag) = o.faults.head? := by
    rw [← Outline.failure?_clause ho flag]
    exact failure?_bind_of_none fun _ _ => rfl
  rw [build, failure?_bind (o := o.faults.head?)]
  · rw [ho]
    rfl
  · intro o' ho'
    obtain rfl : o = o' := Except.ok.inj (ho.symm.trans ho')
    exact hofOutline

theorem exists_build_iff_faults {raw : String} {o : Outline} (ho : Outline.parse raw = .ok o)
    (flag : Bool) : (∃ r, build raw flag = .ok r) ↔ o.faults = [] := by
  rw [← failure?_eq_none_iff, failure?_build ho flag, List.head?_eq_none_iff]

theorem build_eq_error_iff_of_parse {raw : String} {o : Outline} (ho : Outline.parse raw = .ok o)
    {flag : Bool} {e : RequirementError} :
    build raw flag = .error e ↔ o.faults.head? = some e := by
  rw [← failure?_build ho flag, failure?_eq_some_iff]

/-- **Which texts fail, and for what.** An alternative that is no segment makes the whole text
malformed. Otherwise building fails if a condition is faulty, and for the first fault. -/
theorem build_fails (raw : String) (flag : Bool) :
    ((∃ cs ∈ Outline.alternatives raw.toList, Segment.read? cs = none) →
      build raw flag = .error (.malformed raw)) ∧
    ((∀ cs ∈ Outline.alternatives raw.toList, Segment.read? cs ≠ none) →
      ∃ o, Outline.parse raw = .ok o ∧ (o.Within Numeral.limit →
        ((∃ e, build raw flag = .error e) ↔ ∃ s ∈ o.segments, s.Faulty) ∧
        (∀ e, build raw flag = .error e ↔ o.faults.head? = some e) ∧
        ∀ e ∈ o.faults, ∃ text, e = .malformed text)) := by
  constructor
  · intro h
    rw [build, Outline.parse_eq_error_iff.2 h]
    rfl
  · intro h
    obtain ⟨o, ho⟩ := Outline.exists_parse_iff.2 h
    refine ⟨o, ho, fun hwithin => ⟨?_, fun e => build_eq_error_iff_of_parse ho, ?_⟩⟩
    · have hnil := Outline.faults_eq_nil_iff hwithin
      simp only [build_eq_error_iff_of_parse ho, ← Option.isSome_iff_exists, List.isSome_head?]
      cases hfaults : o.faults with
      | nil => simpa using hnil.1 hfaults
      | cons e es => simpa [hfaults] using hnil
    · intro e he
      cases e with
      | malformed text => exact ⟨text, rfl⟩
      | unreadableNumber => exact absurd he (Outline.unreadableNumber_not_mem_faults hwithin)

theorem build_fails_for_symbol :
    build "1.x.3 || ~" false = .error (.malformed "1.x.3 || ~") ∧
      ∃ o, Outline.parse "1.2 || >>1.x.3 ^2.0.0-01" = .ok o ∧ o.Within Numeral.limit ∧
        (∃ s ∈ o.segments, s.Faulty) ∧
        build "1.2 || >>1.x.3 ^2.0.0-01" false = .error (.malformed ">>") := by
  obtain ⟨hbroken, -⟩ := build_fails "1.x.3 || ~" false
  obtain ⟨-, hconditions⟩ := build_fails "1.2 || >>1.x.3 ^2.0.0-01" false
  obtain ⟨o, ho, h⟩ := hconditions (by decide +kernel)
  have hoption : (Outline.parse "1.2 || >>1.x.3 ^2.0.0-01").toOption.all (fun o =>
      decide (o.Within Numeral.limit) && o.faults.head? == some (.malformed ">>")) = true := by
    decide +kernel
  rw [ho] at hoption
  obtain ⟨hwithin, hfirst⟩ := Bool.and_eq_true_iff.1 hoption
  obtain ⟨hfails, hfault, -⟩ := h (of_decide_eq_true hwithin)
  have hbuild := (hfault _).2 (beq_iff_eq.1 hfirst)
  exact ⟨hbroken (by decide +kernel), o, ho, of_decide_eq_true hwithin, hfails.1 ⟨_, hbuild⟩,
    hbuild⟩

end Requirement

end SemverRange
