import SemverRange.Command.Run
import SemverRange.Proofs.Command.Configuration

/-!
# What a step of a run yields

**Yield** (`Step.Yields`). Records apart, a step has one result and one list of printed lines,
whatever state it starts in. The lines of steps in sequence stand one behind the other
(`Yields.bind`), and a step that ends the run leaves what was printed before (`Yields.bind_error`).

**Endings** (`ending`). A malformed requirement ends the run with its own exit code, one with an
unreadable number in a failure.

**Preparation** (`Prepared`). A run comes to its course once its settings are resolved and its log
file, if it has one, is open. From there on it reports what the course yields.

Main results: `yields_build`, `yields_build_error` and `runWith_of_yields`.
-/

namespace SemverRange.Command

namespace Step

theorem run_bind {α β : Type} (x : Step α) (f : α → Step β) (s : State) : (x >>= f).run s =
    match x.run s with
    | (.ok a, s') => (f a).run s'
    | (.error ending, s') => (.error ending, s') := by
  rw [ExceptT.run_bind]
  simp only [bind, StateT.bind]
  rcases x.run s with ⟨result, s'⟩
  cases result <;> rfl

/-- From any state, the step has the given result and prints the given lines. -/
def Yields {α : Type} (x : Step α) (result : Except Ending α) (lines : List String) : Prop :=
  ∀ s : State, ∃ records, x.run s = (result, ⟨s.output ++ lines, records⟩)

namespace Yields

variable {α β : Type} {x : Step α} {f : α → Step β}

theorem pure (a : α) : Yields (Pure.pure a) (.ok a) [] := by
  intro s
  rw [List.append_nil]
  exact ⟨s.records, rfl⟩

/-- The lines of steps in sequence stand one behind the other. -/
theorem bind {a : α} {result : Except Ending β} {lines lines' : List String}
    (hx : Yields x (.ok a) lines) (hf : Yields (f a) result lines') :
    Yields (x >>= f) result (lines ++ lines') := by
  intro s
  obtain ⟨records, hrun⟩ := hx s
  obtain ⟨records', hrun'⟩ := hf ⟨s.output ++ lines, records⟩
  refine ⟨records', ?_⟩
  rw [run_bind, hrun, ← List.append_assoc]
  exact hrun'

theorem after {a : α} {result : Except Ending β} {lines : List String}
    (hx : Yields x (.ok a) []) (hf : Yields (f a) result lines) : Yields (x >>= f) result lines :=
  bind hx hf

theorem before {a : α} {result : Except Ending β} {lines : List String}
    (hx : Yields x (.ok a) lines) (hf : Yields (f a) result []) :
    Yields (x >>= f) result lines := by
  rw [← List.append_nil lines]
  exact bind hx hf

/-- A step that ends the run leaves what was printed before. -/
theorem bind_error {ending : Ending} {lines : List String} (hx : Yields x (.error ending) lines) :
    Yields (x >>= f) (.error ending) lines := by
  intro s
  obtain ⟨records, hrun⟩ := hx s
  exact ⟨records, by rw [run_bind, hrun]⟩

theorem unique {result result' : Except Ending α} {lines lines' : List String}
    (h : Yields x result lines) (h' : Yields x result' lines') : result = result' := by
  obtain ⟨records, hrun⟩ := h ⟨[], []⟩
  obtain ⟨records', hrun'⟩ := h' ⟨[], []⟩
  exact (Prod.mk.inj (hrun.symm.trans hrun')).1

theorem exit (code : ExitCode) : Yields (Step.exit code : Step α) (.error (.exit code)) [] := by
  intro s
  rw [List.append_nil]
  exact ⟨s.records, rfl⟩

theorem fail (f : Failure) : Yields (Step.fail f : Step α) (.error (.failure f)) [] := by
  intro s
  rw [List.append_nil]
  exact ⟨s.records, rfl⟩

theorem print (line : String) : Yields (Step.print line) (.ok ()) [line] :=
  fun s => ⟨s.records, rfl⟩

theorem log (threshold : Nat) (r : Record) : Yields (Step.log threshold r) (.ok ()) [] := by
  unfold Step.log
  by_cases h : threshold ≤ r.level.number
  · rw [if_pos h]
    intro s
    rw [List.append_nil]
    exact ⟨s.records ++ [r], rfl⟩
  · rw [if_neg h]
    exact pure ()

theorem orFail (f : Failure) {o : Option α} {a : α} (h : o = some a) :
    Yields (Step.orFail f o) (.ok a) [] := by
  rw [h]
  exact pure a

theorem forM {g : α → Step Unit} {lines : α → List String} {xs : List α}
    (h : ∀ a, Yields (g a) (.ok ()) (lines a)) :
    Yields (xs.forM g) (.ok ()) (xs.flatMap lines) := by
  induction xs with
  | nil => exact pure ()
  | cons x xs ih =>
    rw [List.flatMap_cons]
    exact bind (h x) ih

theorem forM_silent {g : α → Step Unit} (xs : List α) (h : ∀ a, Yields (g a) (.ok ()) []) :
    Yields (xs.forM g) (.ok ()) [] := by
  have hlines : xs.flatMap (fun _ => ([] : List String)) = [] := by simp
  rw [← hlines]
  exact forM h

end Yields

end Step

open Step

/-! ## Requirements -/

/-- How a run ends whose requirement cannot be built. -/
def ending : RequirementError → Ending
  | .malformed _ => .exit .invalidRequirement
  | .unreadableNumber => .failure .unreadableNumber

section

variable {α : Type} {raw : String} {flag : Bool}

theorem yields_accepted (threshold : Nat) (a : α) :
    Yields (accepted threshold (.ok a)) (.ok a) [] :=
  Yields.pure a

theorem yields_accepted_error (threshold : Nat) (e : RequirementError) :
    Yields (accepted threshold (.error e) : Step α) (.error (ending e)) [] := by
  cases e with
  | malformed text => exact (Yields.log _ _).after (Yields.exit _)
  | unreadableNumber => exact Yields.fail _

/-- A requirement that cannot be built ends the run before anything is printed. -/
theorem yields_build_error {e : RequirementError} (threshold : Nat)
    (h : Requirement.build raw flag = .error e) :
    Yields (build threshold raw flag) (.error (ending e)) [] := by
  unfold build
  cases ho : Outline.parse raw with
  | error e' =>
    rw [Requirement.build, ho] at h
    obtain rfl : e' = e := Except.error.inj h
    exact (yields_accepted_error threshold e').bind_error
  | ok o =>
    rw [Requirement.build, ho] at h
    have haccepted := yields_accepted_error (α := Requirement) threshold e
    rw [← (show Requirement.ofOutline o flag = .error e from h)] at haccepted
    exact (yields_accepted threshold o).after ((Yields.log _ _).after haccepted.bind_error)

/-- A requirement that can be built is yielded if its intervals have a text. -/
theorem yields_build {r : Requirement} (threshold : Nat) (h : Requirement.build raw flag = .ok r)
    {text : String} (htext : r.clause.text? = some text) :
    Yields (build threshold raw flag) (.ok r) [] := by
  unfold build
  cases ho : Outline.parse raw with
  | error e =>
    rw [Requirement.build, ho] at h
    exact absurd h (by simp [bind, Except.bind])
  | ok o =>
    rw [Requirement.build, ho] at h
    have haccepted := yields_accepted threshold r
    rw [← (show Requirement.ofOutline o flag = .ok r from h)] at haccepted
    apply (yields_accepted threshold o).after
    apply (Yields.log _ _).after
    apply haccepted.after
    have hrest : Yields (do Step.log threshold builtRecord; return r) (.ok r) [] :=
      (Yields.log _ _).after (Yields.pure r)
    by_cases hdebug : threshold ≤ Level.debug.number
    · simp only [if_pos hdebug]
      exact (Yields.orFail _ htext).after hrest
    · simp only [if_neg hdebug]
      exact hrest

end

/-! ## The course -/

section

variable {threshold : Nat} {a : Arguments} {flag : Bool} {files : FileTree} {logFile : Option String}
  {result : Except Ending ExitCode} {lines : List String}

/-- What comes before the requirement is built prints nothing. -/
theorem yields_course (h : Yields (do
      let r ← build threshold a.requirement flag
      let listed ← readLists threshold files a.listFiles
      answer threshold a r (a.versions ++ listed)) result lines) :
    Yields (course threshold a flag files logFile) result lines := by
  cases logFile with
  | none => exact (Yields.log _ _).after h
  | some path => exact (Yields.log _ _).after ((Yields.log _ _).after h)

/-- The course gives the answer to the candidates that were given and listed. -/
theorem yields_course_of_answer {r : Requirement} {listed : List String}
    (hbuild : Yields (build threshold a.requirement flag) (.ok r) [])
    (hlisted : Yields (readLists threshold files a.listFiles) (.ok listed) [])
    (hanswer : Yields (answer threshold a r (a.versions ++ listed)) result lines) :
    Yields (course threshold a flag files logFile) result lines :=
  yields_course (hbuild.after (hlisted.after hanswer))

end

/-! ## From the arguments to the course -/

/-- The settings that a run resolves, and the files it has once its log file is open. -/
structure Prepared (w : Surroundings) (a : Arguments) (settings : Settings) (files : FileTree) :
    Prop where
  settings : ∃ config reports warnings,
    Configuration.Loads w.readers w.files w.home a.config.join config reports ∧
    Settings.resolve ⟨a.includePrerelease, a.logLevel.join.map (·.name)⟩ w.env config =
      .ok (settings, warnings)
  files : match a.logFile.join.filter (!·.isEmpty) with
    | none => files = w.files
    | some path => ∃ target before, w.files.openForAppend path = .ok (target, before) ∧
      files = w.files.withFile target before

/-- Without any setting a run has the default ones. -/
theorem prepared_default {w : Surroundings} {a : Arguments} (henv : w.env = fun _ => none)
    (hconfig : Configuration.path? w.files w.home a.config.join = none)
    (hflag : a.includePrerelease = false) (hlevel : a.logLevel = none) (hlog : a.logFile = none) :
    Prepared w a .default w.files := by
  have hunusable : Configuration.Unusable w.readers w.files w.home a.config.join :=
    Configuration.unusable_of_path?_eq_none hconfig
  obtain ⟨reports, hloads⟩ := hunusable.exists_loads
  refine ⟨⟨[], reports, [], hloads, ?_⟩, ?_⟩
  · rw [henv, hflag, hlevel]
    exact Settings.resolve_nil
  · rw [hlog]
    rfl

/-- How a run ends that yields the given result. -/
def endingOf : Except Ending ExitCode → Ending
  | .ok code => .exit code
  | .error ending => ending

/-- A prepared run reports what its course yields. -/
theorem runWith_of_yields {w : Surroundings} {a : Arguments} {settings : Settings}
    {files : FileTree} (hw : Prepared w a settings files) {result : Except Ending ExitCode}
    {lines : List String} (h : ∀ logFile, Yields (course (Log.threshold (some settings.logLevel)) a
      settings.includePrerelease files logFile) result lines) :
    (runWith w a).output = lines ∧ (runWith w a).ending = endingOf result := by
  obtain ⟨config, reports, warnings, hloads, hsettings⟩ := hw.settings
  have hfiles := hw.files
  unfold runWith runConfigured
  simp only [hloads.load_eq, hsettings]
  cases hlog : a.logFile.join.filter (!·.isEmpty) with
  | none =>
    rw [hlog] at hfiles
    obtain rfl : files = w.files := hfiles
    obtain ⟨records, hrun⟩ := h none ⟨[], []⟩
    simp only [hrun]
    cases result <;> exact ⟨rfl, rfl⟩
  | some path =>
    rw [hlog] at hfiles
    obtain ⟨target, before, hopen, rfl⟩ := hfiles
    obtain ⟨records, hrun⟩ := h (some path) ⟨[], []⟩
    simp only [hopen, hrun]
    cases result <;> exact ⟨rfl, rfl⟩

end SemverRange.Command
