import SemverRange.Proofs.Command.Steps
import SemverRange.Proofs.Requirement.SingleComparison

/-!
# Requirements that a run refuses

A requirement fails to be built in one of two ways. A malformed one is refused with an exit code of
its own. A number of more digits than can be read, where it is the first fault of its outline, ends
the run in a failure that nothing handles.

Main results: `run_refuses`, and `Partial.ones` as an example of a long number.
-/

namespace SemverRange

/-! ## Long numbers -/

namespace Partial

/-- The major that is written with `n` digits one. -/
def ones (n : Nat) : Partial := ⟨String.ofList (List.replicate n '1'), none, none, [], []⟩

variable {n : Nat}

theorem read?_ones (hn : 0 < n) : read? (ones n).major.toList = some (ones n) := by
  obtain ⟨m, rfl⟩ : ∃ m, n = m + 1 := ⟨n - 1, by omega⟩
  have htext : ComponentText (ones (m + 1)).major.toList := by
    rw [ones, String.toList_ofList, List.replicate_succ]
    refine .number (by decide) (by decide) fun c hc => ?_
    rw [List.eq_of_mem_replicate hc]
    decide
  refine read?_eq_some_iff.2 ⟨⟨?_, fun _ => rfl, ?_, ?_⟩, .inl ?_⟩
  · intro c hc
    obtain rfl : c = (ones (m + 1)).major := List.mem_singleton.1 hc
    exact htext
  · exact fun id hid => absurd hid List.not_mem_nil
  · exact fun id hid => absurd hid List.not_mem_nil
  · simp [pieces, components, ones, Written.text, Written.dotted, Written.qualifier]

/-- A number that is too long is a fault, and here the only one. -/
theorem faults_ones (hn : Numeral.limit < n) : (ones n).faults = [.unreadableNumber] := by
  have hnumeral : Numeral.isNumeral (ones n).major.toList = true := by
    rw [ones, String.toList_ofList]
    have hne : n ≠ 0 := by omega
    simp [Numeral.isNumeral, hne, show Text.isDigit '1' = true from by decide]
  have hmajor := isWildcard_of_isNumeral hnumeral
  have hshape : ¬ (ones n).Misshapen := by
    simp [Misshapen, WildcardsLast, ones, isWildcard]
  have hwithin : ¬ (ones n).Within Numeral.limit := by
    rintro ⟨hfits | hfits, -⟩
    · rw [hmajor] at hfits
      exact absurd hfits (by decide)
    · simp only [ones, Option.getD_some, String.toList_ofList, List.length_replicate] at hfits
      omega
  have hnamed : ¬ (ones n).Misnamed := by
    simp [Misnamed, ones]
  rw [faults, if_neg hshape, if_neg hwithin, if_neg hnamed]
  rfl

end Partial

namespace Command

/-- **A requirement that cannot be built is refused** before anything is printed: a malformed one
with an exit code, and one of which the first fault is a long number with a failure. Without long
numbers a requirement is malformed or can be built. -/
theorem run_refuses (raw : String) :
    (∀ flag, Requirement.build raw flag = .error .unreadableNumber ↔
      ∃ o, Outline.parse raw = .ok o ∧ o.faults.head? = some .unreadableNumber) ∧
    (∀ o, Outline.parse raw = .ok o → o.Within Numeral.limit → ∀ flag,
      (∃ r, Requirement.build raw flag = .ok r) ∨
        ∃ text, Requirement.build raw flag = .error (.malformed text)) ∧
    ∀ {w : Surroundings} {a : Arguments} {settings : Settings} {files : FileTree},
      Prepared w a settings files → a.requirement = raw →
      ∀ e, Requirement.build raw settings.includePrerelease = .error e →
        (runWith w a).output = [] ∧ (runWith w a).ending = ending e := by
  refine ⟨fun flag => ?_, fun o ho hwithin flag => ?_, fun {w a settings files} hw ha e h => ?_⟩
  · constructor
    · intro h
      cases ho : Outline.parse raw with
      | error e =>
        rw [Requirement.build, ho, Outline.eq_malformed_of_parse ho] at h
        exact absurd h (by simp [bind, Except.bind])
      | ok o => exact ⟨o, rfl, (Requirement.build_eq_error_iff_of_parse ho).1 h⟩
    · rintro ⟨o, ho, hfault⟩
      exact (Requirement.build_eq_error_iff_of_parse ho).2 hfault
  · cases h : Requirement.build raw flag with
    | ok r => exact .inl ⟨r, rfl⟩
    | error e =>
      cases e with
      | malformed text => exact .inr ⟨text, rfl⟩
      | unreadableNumber =>
        have hfault := (Requirement.build_eq_error_iff_of_parse ho).1 h
        exact absurd (List.mem_of_head? hfault) (Outline.unreadableNumber_not_mem_faults hwithin)
  · subst ha
    exact runWith_of_yields hw fun logFile =>
      yields_course (yields_build_error _ h).bind_error

theorem run_refuses_ones : Requirement.build ("=" ++ (Partial.ones 4301).major) false =
      .error .unreadableNumber ∧
    (runWith ⟨fun _ => none, "", ⟨[], []⟩, .standard⟩ ⟨"=" ++ (Partial.ones 4301).major,
      ["1.0.0"], [], some .text, false, false, none, none, none, false⟩).ending = .failure .unreadableNumber := by
  obtain ⟨hunreadable, -, hrun⟩ := run_refuses ("=" ++ (Partial.ones 4301).major)
  have hfault : (Partial.ones 4301).faults = [.unreadableNumber] := Partial.faults_ones (by decide)
  have hbuild := (hunreadable false).2 ⟨_,
    Outline.parse_comparison (Partial.read?_ones (by decide)) .eq, by
      rw [Outline.faults_ofComparator, hfault]
      rfl⟩
  have hw : Prepared ⟨fun _ => none, "", ⟨[], []⟩, .standard⟩ ⟨"=" ++ (Partial.ones 4301).major,
      ["1.0.0"], [], some .text, false, false, none, none, none, false⟩ .default ⟨[], []⟩ :=
    prepared_default rfl (by decide +kernel) rfl rfl rfl
  exact ⟨hbuild, (hrun hw rfl _ hbuild).2⟩

end Command

end SemverRange
