import SemverRange.Proofs.Command.Verdicts
import SemverRange.Proofs.Requirement.Outcome
import SemverRange.Proofs.Settings

/-!
# How a run ends

**List files.** They are read one after the other, up to the first without candidates
(`Unlisted`). A file that cannot be opened ends the run with an exit code; text that cannot be
decoded, a path that cannot be a path, and an option without a path end it in a failure. So either
the list files have their candidates (`Lists`), or the run stops at one of them (`Stops`).

**Conclusions** (`Concludes`). What a run prints and how it ends follow from its requirement, the
treatment of pre-releases, its candidates and the way to print. Neither the threshold for records
nor the log file plays a part, so a run that comes to its course reports the conclusion
(`runWith_of_concludes`), and there always is one (`exists_concludes`).

**Configurations.** A run does not come to its course if the reader of its configuration file fails,
or the configuration has a number for the treatment of pre-releases that is too long to be written
(`Misconfigured`). A file that is missing, is no text or is refused by its reader does no harm.

Main results: `runWith_of_concludes` and `run_ends`.
-/

namespace SemverRange

namespace Command

open Step

/-! ## Configurations -/

/-- What the run says about its settings on the command line. -/
def overrides (a : Arguments) : Overrides :=
  ⟨a.includePrerelease, a.logLevel.join.map (·.name)⟩

/-- The configuration ends the run in a failure: its reader fails on the file, or a number that it
has for the treatment of pre-releases is too long to be written. -/
inductive Misconfigured (w : Surroundings) (a : Arguments) : Failure → Prop
  | reader : Configuration.Breaks w.readers w.files w.home a.config.join →
      Misconfigured w a .configurationReader
  | number {config : List (Scalar × Document)} {reports : List Record} :
      Configuration.Loads w.readers w.files w.home a.config.join config reports →
      Settings.Overlong config → Misconfigured w a .unwritableNumber

/-- The configuration does not end the run. -/
def Configured (w : Surroundings) (a : Arguments) : Prop := ∀ f, ¬ Misconfigured w a f

section

variable {w : Surroundings} {a : Arguments}

theorem runWith_of_misconfigured {f : Failure} (h : Misconfigured w a f) :
    (runWith w a).output = [] ∧ (runWith w a).ending = .failure f := by
  cases h with
  | reader hbreaks => simp [runWith, hbreaks.load_eq]
  | number hloads hoverlong =>
    have herror : Settings.resolve ⟨a.includePrerelease, a.logLevel.join.map (·.name)⟩ w.env _ =
        .error .number := Settings.resolve_eq_error_iff.2 hoverlong
    simp [runWith, hloads.load_eq, runConfigured, herror]

theorem Misconfigured.unique {f g : Failure} (h : Misconfigured w a f) (h' : Misconfigured w a g) :
    f = g :=
  Ending.failure.inj
    ((runWith_of_misconfigured h).2.symm.trans (runWith_of_misconfigured h').2)

theorem Configured.exists_resolve (h : Configured w a) : ∃ config reports settings warnings,
    Configuration.Loads w.readers w.files w.home a.config.join config reports ∧
      Settings.resolve (overrides a) w.env config = .ok (settings, warnings) := by
  rcases Configuration.exists_loads_or_breaks w.readers w.files w.home a.config.join with
    ⟨config, reports, hloads⟩ | hbreaks
  · cases hresolve : Settings.resolve (overrides a) w.env config with
    | error e =>
      cases e
      exact (h _ (.number hloads (Settings.resolve_eq_error_iff.1 hresolve))).elim
    | ok found => exact ⟨config, reports, found.1, found.2, hloads, hresolve⟩
  · exact (h _ (.reader hbreaks)).elim

theorem configured_of_loads {config : List (Scalar × Document)} {reports : List Record}
    (h : Configuration.Loads w.readers w.files w.home a.config.join config reports)
    (hshort : ¬ Settings.Overlong config) : Configured w a := by
  rintro f (hbreaks | ⟨hloads, hoverlong⟩)
  · exact h.not_breaks hbreaks
  · exact hshort (hloads.unique h ▸ hoverlong)

/-- A configuration file that cannot be used does not end a run. -/
theorem configured_of_unusable
    (h : Configuration.Unusable w.readers w.files w.home a.config.join) : Configured w a := by
  obtain ⟨reports, hempty⟩ := h.exists_loads
  refine configured_of_loads hempty ?_
  rintro ⟨d, ⟨before, after, hnil, -⟩, -⟩
  exact absurd hnil (by simp)

end

/-! ## List files without candidates -/

/-- A list file has no candidates for a run, which ends in the given way. -/
inductive Unlisted (files : FileTree) : Option String → Ending → Prop
  | pathless : Unlisted files none (.failure .pathlessListFile)
  | unopened {path : String} {e : OpenError} : files.read path = .error e → e ≠ .unusable →
      Unlisted files (some path) (.exit .fileError)
  | unusable {path : String} : files.read path = .error .unusable →
      Unlisted files (some path) (.failure (.listFile .unusable))
  | undecodable {path : String} {bytes : ByteArray} : files.read path = .ok bytes →
      Text.decode? bytes = none → Unlisted files (some path) (.failure .undecodableText)

/-- The run ends at a list file without candidates, after those before it have been read. -/
inductive Stops (files : FileTree) : List (Option String) → Ending → Prop
  | here {file : Option String} {rest : List (Option String)} {ends : Ending} :
      Unlisted files file ends → Stops files (file :: rest) ends
  | later {path : String} {bytes : ByteArray} {cs : List Char} {rest : List (Option String)}
      {ends : Ending} : files.read path = .ok bytes → Text.decode? bytes = some cs →
      Stops files rest ends → Stops files (some path :: rest) ends

section

variable {files : FileTree} {lists : List (Option String)}

/-- The list files have their candidates, or the run stops at one of them. -/
theorem lists_or_stops (files : FileTree) (lists : List (Option String)) :
    (∃ listed, Lists files lists listed) ∨ ∃ ends, Stops files lists ends := by
  induction lists with
  | nil => exact .inl ⟨[], .nil⟩
  | cons file rest ih =>
    cases file with
    | none => exact .inr ⟨_, .here .pathless⟩
    | some path =>
      cases hread : files.read path with
      | error e =>
        by_cases he : e = .unusable
        · subst he
          exact .inr ⟨_, .here (.unusable hread)⟩
        · exact .inr ⟨_, .here (.unopened hread he)⟩
      | ok bytes =>
        cases hdecode : Text.decode? bytes with
        | none => exact .inr ⟨_, .here (.undecodable hread hdecode)⟩
        | some cs =>
          rcases ih with ⟨listed, hlisted⟩ | ⟨ends, hstops⟩
          · exact .inl ⟨_, .cons hread hdecode hlisted⟩
          · exact .inr ⟨ends, .later hread hdecode hstops⟩

theorem yields_readList_of_unlisted {threshold : Nat} {path : String} {ends : Ending}
    (h : Unlisted files (some path) ends) :
    Yields (readList threshold files path) (.error ends) [] := by
  unfold readList
  cases h with
  | @unopened _ e hread he =>
    rw [hread]
    cases e with
    | unusable => exact absurd rfl he
    | absent | isADirectory | notADirectory | nameTooLong =>
      exact (Yields.log _ _).after (Yields.exit _)
  | unusable hread =>
    rw [hread]
    exact Yields.fail _
  | undecodable hread hdecode =>
    simp only [hread, hdecode]
    exact Yields.fail _

theorem yields_readLists_of_stops (threshold : Nat) {ends : Ending} (h : Stops files lists ends) :
    Yields (readLists threshold files lists) (.error ends) [] := by
  induction h with
  | @here file rest ends hunlisted =>
    cases file with
    | none => cases hunlisted; exact Yields.fail _
    | some path => exact (yields_readList_of_unlisted hunlisted).bind_error
  | later hread hdecode _ ih => exact (yields_readList hread hdecode).after ih.bind_error

theorem Stops.unique {ends ends' : Ending} (h : Stops files lists ends)
    (h' : Stops files lists ends') : ends = ends' :=
  Except.error.inj ((yields_readLists_of_stops 0 h).unique (yields_readLists_of_stops 0 h'))

theorem Stops.not_lists {ends : Ending} (h : Stops files lists ends) {listed : List String} :
    ¬ Lists files lists listed := fun hlisted =>
  absurd ((yields_readLists_of_stops 0 h).unique (yields_readLists hlisted)) (by simp)

/-- No run stops with an answer. -/
theorem Stops.ends_cases {ends : Ending} (h : Stops files lists ends) :
    ends = .exit .fileError ∨ ∃ f, ends = .failure f := by
  induction h with
  | here hunlisted =>
    cases hunlisted with
    | unopened => exact .inl rfl
    | pathless | unusable | undecodable => exact .inr ⟨_, rfl⟩
  | later _ _ _ ih => exact ih

end

/-! ## Conclusions -/

/-- The requirement answers with the lines and the exit code, whatever is logged. -/
structure Answers (a : Arguments) (r : Requirement) (cs lines : List String) (code : ExitCode) :
    Prop where
  yields : ∀ threshold, Yields (answer threshold a r cs) (.ok code) lines
  code : code = .success ∨ code = .noMatch

/-- A requirement whose intervals have a text has an answer. -/
theorem exists_answers {a : Arguments} {r : Requirement} {text : String}
    (htext : r.clause.text? = some text) (cs : List String) :
    ∃ lines code, Answers a r cs lines code := by
  by_cases hmax : a.max = true
  · cases hbest : r.maxSatisfying (cs.map .text) with
    | none =>
      refine ⟨bestLines a r none, .noMatch, fun threshold => ?_, .inr rfl⟩
      rw [answer, if_pos hmax]
      exact yields_answerBest_none hbest
    | some m =>
      obtain ⟨best, hwritten⟩ := exists_text?_of_maxSatisfying hbest
      refine ⟨bestLines a r (some best), .success, fun threshold => ?_, .inl rfl⟩
      rw [answer, if_pos hmax]
      exact yields_answerBest hbest hwritten
  · by_cases hempty : cs.isEmpty = true
    · refine ⟨rangeLines a r text, .success, fun threshold => ?_, .inl rfl⟩
      rw [answer, if_neg hmax, if_pos hempty]
      exact yields_answerRanges htext
    · refine ⟨rowLines a r (rows r cs), exitOfRows (rows r cs), fun threshold => ?_, ?_⟩
      · rw [answer, if_neg hmax, if_neg hempty]
        exact yields_answerRows cs
      · unfold exitOfRows
        split
        · exact .inl rfl
        · exact .inr rfl

/-- The requirement can be built. Whether pre-releases are included does not matter for that. -/
def Builds (raw : String) : Prop := ∃ flag r, Requirement.build raw flag = .ok r

theorem builds_iff {raw : String} (flag : Bool) :
    Builds raw ↔ ∃ r, Requirement.build raw flag = .ok r := by
  constructor
  · rintro ⟨flag', r, hr⟩
    exact (Requirement.build_alike flag' flag raw).exists_ok hr
  · rintro ⟨r, hr⟩
    exact ⟨flag, r, hr⟩

/-- What a run prints and how it ends: it refuses its requirement, stops at a list file, or gives
an answer. -/
inductive Concludes (a : Arguments) (flag : Bool) (files : FileTree) :
    List String → Ending → Prop
  | refused {e : RequirementError} : Requirement.build a.requirement flag = .error e →
      Concludes a flag files [] (ending e)
  | stopped {r : Requirement} {text : String} {ends : Ending} :
      Requirement.build a.requirement flag = .ok r → r.clause.text? = some text →
      Stops files a.listFiles ends → Concludes a flag files [] ends
  | answered {r : Requirement} {text : String} {listed lines : List String} {code : ExitCode} :
      Requirement.build a.requirement flag = .ok r → r.clause.text? = some text →
      Lists files a.listFiles listed → Answers a r (a.versions ++ listed) lines code →
      Concludes a flag files lines (.exit code)

/-- The numbers of the requirement have fewer digits than can be read. -/
def Short (raw : String) : Prop :=
  ∀ o, Outline.parse raw = .ok o → o.Within (Numeral.limit - 1)

instance (raw : String) : Decidable (Short raw) :=
  match h : Outline.parse raw with
  | .ok o => decidable_of_iff (o.Within (Numeral.limit - 1)) (by simp [Short, h])
  | .error e => .isTrue (by simp [Short, h])

section

variable {raw : String} {flag : Bool} (hshort : Short raw)
include hshort

theorem Short.exists_text? {r : Requirement} (hr : Requirement.build raw flag = .ok r) :
    ∃ text, r.clause.text? = some text := by
  obtain ⟨o, c, ho, -, -⟩ := Requirement.build_eq_ok_iff.1 hr
  exact Requirement.exists_text? ho hr (hshort o ho)

/-- A requirement without long numbers is malformed if it cannot be built. -/
theorem Short.ending_eq {e : RequirementError} (h : Requirement.build raw flag = .error e) :
    ending e = .exit .invalidRequirement := by
  cases e with
  | malformed text => rfl
  | unreadableNumber =>
    cases ho : Outline.parse raw with
    | error e =>
      rw [Requirement.build, ho, Outline.eq_malformed_of_parse ho] at h
      exact absurd h (by simp [bind, Except.bind])
    | ok o =>
      have hfault := (Requirement.build_eq_error_iff_of_parse ho).1 h
      have hwithin : o.Within Numeral.limit := (hshort o ho).mono (Nat.sub_le _ _)
      exact absurd (List.mem_of_head? hfault) (Outline.unreadableNumber_not_mem_faults hwithin)

end

/-- **Every run has a conclusion.** -/
theorem exists_concludes {a : Arguments} (hshort : Short a.requirement) (flag : Bool)
    (files : FileTree) : ∃ lines ends, Concludes a flag files lines ends := by
  cases hr : Requirement.build a.requirement flag with
  | error e => exact ⟨[], ending e, .refused hr⟩
  | ok r =>
    obtain ⟨text, htext⟩ := hshort.exists_text? hr
    rcases lists_or_stops files a.listFiles with ⟨listed, hlisted⟩ | ⟨ends, hstops⟩
    · obtain ⟨lines, code, hanswers⟩ := exists_answers htext (a.versions ++ listed)
      exact ⟨lines, .exit code, .answered hr htext hlisted hanswers⟩
    · exact ⟨[], ends, .stopped hr htext hstops⟩

section

variable {a : Arguments} {flag : Bool} {files : FileTree} {lines : List String} {ends : Ending}
  (h : Concludes a flag files lines ends)
include h

/-- A run refuses its requirement if that cannot be built. -/
theorem Concludes.refuses_iff (hshort : Short a.requirement) :
    ends = .exit .invalidRequirement ↔ ¬ Builds a.requirement := by
  rw [builds_iff flag]
  cases h with
  | refused hbuild => simp [hshort.ending_eq hbuild, hbuild]
  | stopped hr _ hstops =>
    rcases hstops.ends_cases with rfl | ⟨f, rfl⟩ <;> simp [hr]
  | answered hr _ _ hanswers =>
    rcases hanswers.code with rfl | rfl <;> simp [hr]

/-- A run whose requirement can be built ends at the list file at which it stops. -/
theorem Concludes.stops_iff (hshort : Short a.requirement) {stop : Ending}
    (hstop : stop = .exit .fileError ∨ ∃ f, stop = .failure f) :
    ends = stop ↔ Builds a.requirement ∧ Stops files a.listFiles stop := by
  rw [builds_iff flag]
  cases h with
  | refused hbuild =>
    rw [hshort.ending_eq hbuild]
    rcases hstop with rfl | ⟨f, rfl⟩ <;> simp [hbuild]
  | stopped hr _ hstops =>
    constructor
    · rintro rfl
      exact ⟨⟨_, hr⟩, hstops⟩
    · exact fun ⟨_, hstops'⟩ => hstops.unique hstops'
  | answered hr _ hlisted hanswers =>
    have hnot : ¬ Stops files a.listFiles stop := fun hstops => hstops.not_lists hlisted
    rcases hanswers.code with rfl | rfl <;> rcases hstop with rfl | ⟨f, rfl⟩ <;> simp [hnot]

theorem Concludes.lines_eq_nil (hsuccess : ends ≠ .exit .success) (hmatch : ends ≠ .exit .noMatch) :
    lines = [] := by
  cases h with
  | refused | stopped => rfl
  | answered _ _ _ hanswers =>
    rcases hanswers.code with rfl | rfl
    · exact absurd rfl hsuccess
    · exact absurd rfl hmatch

end

/-- **A run reports its conclusion**, whatever it logs and wherever. -/
theorem runWith_of_concludes {w : Surroundings} {a : Arguments} {settings : Settings}
    {files : FileTree} (hw : Prepared w a settings files) {lines : List String} {ends : Ending}
    (h : Concludes a settings.includePrerelease files lines ends) :
    (runWith w a).output = lines ∧ (runWith w a).ending = ends := by
  cases h with
  | refused hbuild =>
    exact runWith_of_yields hw fun _ => yields_course (yields_build_error _ hbuild).bind_error
  | stopped hr htext hstops =>
    exact runWith_of_yields hw fun _ => yields_course
      ((yields_build _ hr htext).after (yields_readLists_of_stops _ hstops).bind_error)
  | answered hr htext hlisted hanswers =>
    exact runWith_of_yields hw fun _ =>
      yields_course_of_answer (yields_build _ hr htext) (yields_readLists hlisted)
        (hanswers.yields _)

/-! ## How a run ends -/

/-- **How a run without a log file ends.** Its configuration ends it in a failure if the reader of
the file fails or a number for the treatment of pre-releases is too long, and otherwise does not
matter. A requirement that cannot be built ends it with an exit code of its own. After that the
first list file without candidates decides: with an exit code if the file cannot be opened, and in a
failure if its text cannot be decoded or its path cannot be one. Only a run with an answer prints. -/
theorem run_ends {w : Surroundings} {argv : List String} {a : Arguments}
    (hargs : Arguments.parse argv = .ok a) (hlog : a.logFile = none)
    (hshort : Short a.requirement) : ∃ report, run w argv = .ok report ∧
      (∀ f, report.ending = .failure f ↔ Misconfigured w a f ∨
        (Configured w a ∧ Builds a.requirement ∧ Stops w.files a.listFiles (.failure f))) ∧
      (report.ending = .exit .fileError ↔ Configured w a ∧ Builds a.requirement ∧
        Stops w.files a.listFiles (.exit .fileError)) ∧
      (report.ending = .exit .invalidRequirement ↔ Configured w a ∧ ¬ Builds a.requirement) ∧
      (report.ending ≠ .exit .success → report.ending ≠ .exit .noMatch → report.output = []) ∧
      (Configuration.Unusable w.readers w.files w.home a.config.join → Configured w a) := by
  have hrun : run w argv = .ok (runWith w a) := by
    rw [run, hargs]
    rfl
  refine ⟨runWith w a, hrun, ?_⟩
  by_cases hconfig : Configured w a
  · obtain ⟨config, reports, settings, warnings, hloads, hresolve⟩ := hconfig.exists_resolve
    have hw : Prepared w a settings w.files :=
      ⟨⟨config, reports, warnings, hloads, hresolve⟩, by rw [hlog]; rfl⟩
    obtain ⟨lines, ends, h⟩ := exists_concludes hshort settings.includePrerelease w.files
    obtain ⟨houtput, hending⟩ := runWith_of_concludes hw h
    rw [houtput, hending]
    refine ⟨fun f => ?_, ?_, ?_, h.lines_eq_nil, configured_of_unusable⟩
    · rw [h.stops_iff hshort (.inr ⟨f, rfl⟩)]
      simp [hconfig, hconfig f]
    · rw [h.stops_iff hshort (.inl rfl)]
      simp [hconfig]
    · rw [h.refuses_iff hshort]
      simp [hconfig]
  · obtain ⟨g, hg⟩ : ∃ g, Misconfigured w a g := by simpa [Configured] using hconfig
    obtain ⟨houtput, hending⟩ := runWith_of_misconfigured hg
    rw [hending]
    refine ⟨fun f => ?_, ?_, ?_, fun _ _ => houtput, configured_of_unusable⟩
    · have hfailure : Misconfigured w a f ↔ g = f := ⟨hg.unique, fun h => h ▸ hg⟩
      simp [hconfig, hfailure]
    · simp [hconfig]
    · simp [hconfig]

theorem run_ends_undecodable : ∃ report,
    run ⟨fun _ => none, "", ⟨[(["versions.txt"], .file ⟨#[255]⟩)], []⟩, .standard⟩
      ["1.x", "-l", "versions.txt"] = .ok report ∧
    report.ending = .failure .undecodableText ∧ report.output = [] := by
  have hargs : Arguments.parse ["1.x", "-l", "versions.txt"] = .ok ⟨"1.x", [],
      [some "versions.txt"], some .text, false, false, none, none, none, false⟩ := by rfl
  obtain ⟨report, hrun, hfails, -, -, hsilent, hconfig⟩ :=
    run_ends (w := ⟨fun _ => none, "", ⟨[(["versions.txt"], .file ⟨#[255]⟩)], []⟩, .standard⟩)
      hargs rfl (by decide +kernel)
  have hconfigured := hconfig (Configuration.unusable_of_path?_eq_none (by decide +kernel))
  obtain ⟨r, hr, -⟩ : ∃ r, Requirement.build "1.x" false = .ok r ∧
      r.accepts ⟨⟨1, 0, 0⟩, [], []⟩ = true :=
    Requirement.exists_build_of_accepts (by decide +kernel)
  have hread : FileTree.read ⟨[(["versions.txt"], .file ⟨#[255]⟩)], []⟩ "versions.txt" =
      .ok ⟨#[255]⟩ := by rfl
  have hstops : Stops ⟨[(["versions.txt"], .file ⟨#[255]⟩)], []⟩ [some "versions.txt"]
      (.failure .undecodableText) := .here (.undecodable hread (by decide +kernel))
  have hending := (hfails .undecodableText).2 (.inr ⟨hconfigured, ⟨false, r, hr⟩, hstops⟩)
  exact ⟨report, hrun, hending, hsilent (by simp [hending]) (by simp [hending])⟩

end Command

end SemverRange
