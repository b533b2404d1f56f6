import Mathlib.Data.List.Forall2
import SemverRange.Proofs.Command.Endings

/-!
# What the report of a run does not depend on

Two runs ask the same if they have the same requirement, the same candidates and the same way to
print (`SameQuestion`, `ReadAlike`). They may differ in all the rest: where they take place, their
environment and configuration, their log level and their log file.

**List files beside a log file.** A log file that can be opened and is none of the list files
(`Loggable`) leaves the bytes of these as they are, and brings no new ones. It may change why a
list file cannot be opened, but not how the run ends because of it.

**Settings.** Of all that the runs may differ in, only the treatment of pre-releases has a part in
the conclusion (`Concludes.congr`). It comes from the first source that says anything (`Settles`),
so a source that says nothing is as good as none.

Main result: `run_depends_on_effective`.
-/

namespace SemverRange.Command

open Settings

/-- The configuration of the run is loaded and gives it the settings. -/
def Resolves (w : Surroundings) (a : Arguments) (settings : Settings) : Prop :=
  ∃ config reports warnings,
    Configuration.Loads w.readers w.files w.home a.config.join config reports ∧
      resolve (overrides a) w.env config = .ok (settings, warnings)

/-! ## The same list files -/

/-- The two list files have the same bytes, or none; and the path of one is usable if that of the
other is. -/
inductive ReadAlike (files files' : FileTree) : Option String → Option String → Prop
  | pathless : ReadAlike files files' none none
  | path {path path' : String} :
      (∀ bytes, files.read path = .ok bytes ↔ files'.read path' = .ok bytes) →
      (files.read path = .error .unusable ↔ files'.read path' = .error .unusable) →
      ReadAlike files files' (some path) (some path')

section

variable {files files' : FileTree}

/-- A list file without candidates ends both runs alike, though maybe for another reason. -/
theorem ReadAlike.unlisted {file file' : Option String} (h : ReadAlike files files' file file')
    {ends : Ending} (hunlisted : Unlisted files file ends) : Unlisted files' file' ends := by
  cases h with
  | pathless =>
    cases hunlisted
    exact .pathless
  | @path path path' hbytes hunusable =>
    cases hunlisted with
    | @unopened _ e hread he =>
      cases hread' : files'.read path' with
      | ok bytes => exact absurd (hread.symm.trans ((hbytes bytes).2 hread')) (by simp)
      | error e' =>
        refine .unopened hread' fun he' => he ?_
        subst he'
        exact Except.error.inj (hread.symm.trans (hunusable.2 hread'))
    | unusable hread => exact .unusable (hunusable.1 hread)
    | undecodable hread hdecode => exact .undecodable ((hbytes _).1 hread) hdecode

variable {lists lists' : List (Option String)}
  (h : List.Forall₂ (ReadAlike files files') lists lists')
include h

theorem Lists.congr {listed : List String} (hlisted : Lists files lists listed) :
    Lists files' lists' listed := by
  induction hlisted generalizing lists' with
  | nil =>
    cases h
    exact .nil
  | cons hread hdecode _ ih =>
    cases h with
    | cons hfile hrest =>
      cases hfile with
      | path hbytes => exact .cons ((hbytes _).1 hread) hdecode (ih hrest)

/-- List files that are read alike stop both runs in the same way, or none of them. -/
theorem Stops.congr {ends : Ending} (hstops : Stops files lists ends) :
    Stops files' lists' ends := by
  induction hstops generalizing lists' with
  | here hunlisted =>
    cases h with
    | cons hfile hrest => exact .here (hfile.unlisted hunlisted)
  | later hread hdecode _ ih =>
    cases h with
    | cons hfile hrest =>
      cases hfile with
      | path hbytes => exact .later ((hbytes _).1 hread) hdecode (ih hrest)

end

/-! ## Log files -/

/-- The log file of a run, if it has one, can be opened and is none of its list files. -/
structure Loggable (w : Surroundings) (a : Arguments) : Prop where
  working : FileTree.Named w.files.workingDirectory
  opens : ∀ path, a.logFile.join = some path → path ≠ "" → ∃ target before,
    w.files.openForAppend path = .ok (target, before) ∧ ∀ list, some list ∈ a.listFiles →
      FileTree.simplify (w.files.start list) (FileTree.names list) ≠ target

theorem loggable_of_logFile_eq_none {w : Surroundings} {a : Arguments}
    (hworking : FileTree.Named w.files.workingDirectory) (h : a.logFile = none) : Loggable w a :=
  ⟨hworking, fun _ hpath => absurd hpath (by simp [h])⟩

/-- A log file leaves the list files as they are, up to the reason why one cannot be opened. -/
theorem Loggable.exists_prepared {w : Surroundings} {a : Arguments} (h : Loggable w a)
    {settings : Settings} (hresolves : Resolves w a settings) : ∃ files,
      Prepared w a settings files ∧
        List.Forall₂ (ReadAlike w.files files) a.listFiles a.listFiles := by
  simp only [List.forall₂_same]
  have hrefl : ∀ file ∈ a.listFiles, ReadAlike w.files w.files file file := by
    intro file _
    cases file with
    | none => exact .pathless
    | some path => exact .path (fun _ => Iff.rfl) Iff.rfl
  cases hlog : a.logFile.join.filter (!·.isEmpty) with
  | none => exact ⟨w.files, ⟨hresolves, by rw [hlog]⟩, hrefl⟩
  | some log =>
    obtain ⟨hgiven, hnonempty⟩ := Option.filter_eq_some_iff.1 hlog
    obtain ⟨target, before, hopen, hapart⟩ := h.opens log hgiven (by simpa using hnonempty)
    refine ⟨w.files.withFile target before, ⟨hresolves, ?_⟩, ?_⟩
    · rw [hlog]
      exact ⟨target, before, hopen, rfl⟩
    · intro file hfile
      cases file with
      | none => exact .pathless
      | some path =>
        refine .path (fun bytes => ?_) ?_
        · exact (FileTree.read_withFile h.working hopen (hapart path hfile)).symm
        · rw [FileTree.read_eq_unusable_iff, FileTree.read_eq_unusable_iff]

/-! ## The same question -/

/-- The two command lines ask the same of their candidates. -/
structure SameQuestion (a a' : Arguments) : Prop where
  requirement : a.requirement = a'.requirement
  versions : a.versions = a'.versions
  format : a.format = a'.format
  max : a.max = a'.max
  quiet : a.quiet = a'.quiet

theorem SameQuestion.answer_eq {a a' : Arguments} (h : SameQuestion a a') (threshold : Nat)
    (r : Requirement) (cs : List String) : answer threshold a r cs = answer threshold a' r cs := by
  have hemit : emit a = emit a' := by
    funext line
    rw [emit, emit, h.quiet]
  unfold answer answerBest answerRanges answerRows
  rw [h.format, h.max, hemit]

/-- The same question has the same conclusion, if pre-releases are treated in the same way. -/
theorem Concludes.congr {a a' : Arguments} {flag : Bool} {files files' : FileTree}
    (hquestion : SameQuestion a a')
    (hlists : List.Forall₂ (ReadAlike files files') a.listFiles a'.listFiles)
    {lines : List String} {ends : Ending} (h : Concludes a flag files lines ends) :
    Concludes a' flag files' lines ends := by
  cases h with
  | refused hbuild => exact .refused (hquestion.requirement ▸ hbuild)
  | stopped hr htext hstops =>
    exact .stopped (hquestion.requirement ▸ hr) htext (hstops.congr hlists)
  | answered hr htext hlisted hanswers =>
    refine .answered (hquestion.requirement ▸ hr) htext (hlisted.congr hlists) ⟨?_, hanswers.code⟩
    intro threshold
    rw [← hquestion.versions, ← hquestion.answer_eq]
    exact hanswers.yields threshold

/-- **A run reports its conclusion** from the list files as they are before it opens its log
file. -/
theorem Loggable.runWith_of_concludes {w : Surroundings} {a : Arguments} (h : Loggable w a)
    {settings : Settings} (hresolves : Resolves w a settings) {lines : List String} {ends : Ending}
    (hconcludes : Concludes a settings.includePrerelease w.files lines ends) :
    (runWith w a).output = lines ∧ (runWith w a).ending = ends := by
  obtain ⟨files, hw, hfiles⟩ := h.exists_prepared hresolves
  exact Command.runWith_of_concludes hw (hconcludes.congr ⟨rfl, rfl, rfl, rfl, rfl⟩ hfiles)

/-! ## Settings -/

/-- The configuration file of a run says yes, or no. -/
def FileSays (w : Surroundings) (a : Arguments) (b : Bool) : Prop :=
  ∃ config reports, Configuration.Loads w.readers w.files w.home a.config.join config reports ∧
    ConfigurationSays config b

theorem FileSays.unique {w : Surroundings} {a : Arguments} {b c : Bool} (hb : FileSays w a b)
    (hc : FileSays w a c) : b = c := by
  obtain ⟨config, reports, hloads, hmeans⟩ := hb
  obtain ⟨config', reports', hloads', hmeans'⟩ := hc
  obtain rfl := hloads.unique hloads'
  exact hmeans.unique hmeans'

theorem FileSays.configured {w : Surroundings} {a : Arguments} {b : Bool} (h : FileSays w a b) :
    Configured w a := by
  obtain ⟨config, reports, hloads, hsays⟩ := h
  exact configured_of_loads hloads hsays.not_overlong

/-- The settings of a run: the first source that says anything decides about pre-releases, and the
log level is one of the five. -/
structure Settles (w : Surroundings) (a : Arguments) (settings : Settings) : Prop where
  resolves : Resolves w a settings
  effective : Effective a.includePrerelease w.env (FileSays w a) settings.includePrerelease
  level : ∃ l : Level, settings.logLevel = l.name

theorem Configured.exists_settles {w : Surroundings} {a : Arguments} (h : Configured w a) :
    ∃ settings, Settles w a settings := by
  obtain ⟨config, reports, settings, warnings, hloads, hresolve⟩ := h.exists_resolve
  have hsays : ∀ b, ConfigurationSays config b ↔ FileSays w a b := by
    refine fun b => ⟨fun hmeans => ⟨config, reports, hloads, hmeans⟩, ?_⟩
    rintro ⟨config', reports', hloads', hmeans⟩
    exact hloads.unique hloads' ▸ hmeans
  refine ⟨settings, ⟨config, reports, warnings, hloads, hresolve⟩,
    (effective_of_resolve hresolve).congr (fun _ => Iff.rfl) hsays, ?_⟩
  apply exists_level_of_resolve hresolve
  intro name hname
  obtain ⟨l, -, rfl⟩ := Option.map_eq_some_iff.1 hname
  exact ⟨l, rfl⟩

/-- **A report depends on the settings only through the treatment of pre-releases.** A configuration
that ends a run lets it print nothing. If neither run is ended so, two runs with the same question
print the same and end alike if they treat pre-releases in the same way, and so they do if the same
sources say the same, whatever a source holds that says nothing. -/
theorem run_depends_on_effective {w w' : Surroundings} {argv argv' : List String}
    {a a' : Arguments} (hargs : Arguments.parse argv = .ok a)
    (hargs' : Arguments.parse argv' = .ok a') (hquestion : SameQuestion a a')
    (hlists : List.Forall₂ (ReadAlike w.files w'.files) a.listFiles a'.listFiles)
    (hshort : Short a.requirement) (hlog : Loggable w a) (hlog' : Loggable w' a') :
    ∃ report report', run w argv = .ok report ∧ run w' argv' = .ok report' ∧
      (∀ f, Misconfigured w a f → report.output = [] ∧ report.ending = .failure f) ∧
      (∀ f, Misconfigured w' a' f → report'.output = [] ∧ report'.ending = .failure f) ∧
      (Configured w a → Configured w' a' → ∃ settings settings',
        Settles w a settings ∧ Settles w' a' settings' ∧
        (settings.includePrerelease = settings'.includePrerelease →
          report.output = report'.output ∧ report.ending = report'.ending) ∧
        (a.includePrerelease = a'.includePrerelease →
          (∀ b, EnvironmentSays w.env b ↔ EnvironmentSays w'.env b) →
          (∀ b, FileSays w a b ↔ FileSays w' a' b) →
          report.output = report'.output ∧ report.ending = report'.ending)) := by
  have hrun : run w argv = .ok (runWith w a) := by
    rw [run, hargs]
    rfl
  have hrun' : run w' argv' = .ok (runWith w' a') := by
    rw [run, hargs']
    rfl
  refine ⟨_, _, hrun, hrun', fun _ => runWith_of_misconfigured, fun _ => runWith_of_misconfigured,
    fun hconfig hconfig' => ?_⟩
  obtain ⟨settings, hsettles⟩ := hconfig.exists_settles
  obtain ⟨settings', hsettles'⟩ := hconfig'.exists_settles
  have hequal : settings.includePrerelease = settings'.includePrerelease →
      (runWith w a).output = (runWith w' a').output ∧
        (runWith w a).ending = (runWith w' a').ending := by
    intro hflag
    obtain ⟨lines, ends, h⟩ := exists_concludes hshort settings.includePrerelease w.files
    obtain ⟨houtput, hending⟩ := hlog.runWith_of_concludes hsettles.resolves h
    have h' : Concludes a' settings'.includePrerelease w'.files lines ends :=
      hflag ▸ h.congr hquestion hlists
    obtain ⟨houtput', hending'⟩ := hlog'.runWith_of_concludes hsettles'.resolves h'
    exact ⟨houtput.trans houtput'.symm, hending.trans hending'.symm⟩
  refine ⟨settings, settings', hsettles, hsettles', hequal, fun hgiven henv hfile => ?_⟩
  have heffective : Effective a'.includePrerelease w'.env (FileSays w' a')
      settings.includePrerelease := hgiven ▸ hsettles.effective.congr henv hfile
  exact hequal (heffective.unique FileSays.unique hsettles'.effective)

theorem run_depends_on_effective_configured : ∃ w report report' report'',
    w = ⟨fun _ => none, "", ⟨[(["npmrange.yml"], .file "include_prerelease: Yes\n".toUTF8),
      (["c.yml"], .file "a: !!bool foo\n".toUTF8), (["a.txt"], .file "1.2.0-rc".toUTF8)], []⟩,
      .standard⟩ ∧
    run w ["1.x", "-l", "a.txt", "--loglevel", "debug", "--logfile", "b.txt"] = .ok report ∧
    run w ["1.x", "-l", "a.txt", "--include-prerelease", "-c", "d.yml"] = .ok report' ∧
    run w ["1.x", "-l", "a.txt", "-c", "c.yml"] = .ok report'' ∧
    report.output = report'.output ∧ report.ending = report'.ending ∧
    report''.output = [] ∧ report''.ending = .failure .configurationReader := by
  obtain ⟨w, hw⟩ : ∃ w : Surroundings, w = ⟨fun _ => none, "",
      ⟨[(["npmrange.yml"], .file "include_prerelease: Yes\n".toUTF8),
        (["c.yml"], .file "a: !!bool foo\n".toUTF8), (["a.txt"], .file "1.2.0-rc".toUTF8)], []⟩,
      .standard⟩ := ⟨_, rfl⟩
  obtain ⟨a, hargs, ha⟩ : ∃ a, Arguments.parse ["1.x", "-l", "a.txt", "--loglevel", "debug",
      "--logfile", "b.txt"] = .ok a ∧ a = ⟨"1.x", [], [some "a.txt"], some .text, false, false,
        none, some (some .debug), some (some "b.txt"), false⟩ := ⟨_, by rfl, rfl⟩
  obtain ⟨a', hargs', ha'⟩ : ∃ a, Arguments.parse ["1.x", "-l", "a.txt", "--include-prerelease",
      "-c", "d.yml"] = .ok a ∧ a = ⟨"1.x", [], [some "a.txt"], some .text, false, true,
        some (some "d.yml"), none, none, false⟩ := ⟨_, by rfl, rfl⟩
  obtain ⟨a'', hargs'', ha''⟩ : ∃ a, Arguments.parse ["1.x", "-l", "a.txt", "-c", "c.yml"] = .ok a ∧
      a = ⟨"1.x", [], [some "a.txt"], some .text, false, false, some (some "c.yml"), none, none,
        false⟩ := ⟨_, by rfl, rfl⟩
  have hkey : Yaml.plainScalar none "include_prerelease".toList =
      .ok (.text "include_prerelease") := by rfl
  have hgives : Yaml.Setting.Gives ⟨"include_prerelease".toList, none, "Yes".toList⟩
      (.text "include_prerelease") (.bool true) := ⟨hkey, by rfl⟩
  have hwritten : Configuration.Written w.files w.home a.config.join "npmrange.yml" (Yaml.ofLines
      [Yaml.Setting.rawLine 0 ⟨"include_prerelease".toList, none, "Yes".toList⟩]) := by
    have husual : Configuration.usualPaths "" = [] ++ "npmrange.yml" :: _ := rfl
    subst hw ha
    exact .intro (.usual (by simp) husual ⟨_, rfl⟩ (by simp)) rfl (by decide +kernel)
  have hloads : Configuration.Loads w.readers w.files w.home a.config.join
      (Yaml.Setting.entries [⟨"include_prerelease".toList, none, "Yes".toList⟩]) [] := by
    have hstandard : w.readers = .standard := by rw [hw]
    rw [hstandard]
    exact Configuration.loads_setting hwritten (by decide +kernel) ⟨by decide, by decide⟩ hgives
      (by decide)
  have hhas : Document.Has (Yaml.Setting.entries ([] ++ ⟨"include_prerelease".toList, none,
      "Yes".toList⟩ :: [])) "include_prerelease" (.scalar (.bool true)) :=
    Yaml.Setting.has_entries hgives (by simp)
  have hsays : FileSays w a true := ⟨_, _, hloads, _, hhas, .bool true⟩
  -- there is no file of the second configuration, and the reader fails on the third
  have hconfigured' : Configured w a' := by
    refine configured_of_unusable ?_
    subst hw ha'
    rintro path cs ⟨hlocated, hlookup, -⟩
    cases hlocated with
    | requested => exact nomatch hlookup
    | usual hempty => exact absurd (hempty "d.yml" rfl) (by decide)
  have hwritten'' : Configuration.Written w.files w.home a''.config.join "c.yml" (Yaml.ofLines
      (([] ++ (⟨['a'], some .truth, "foo".toList⟩ : Yaml.Setting) :: []).map
        (Yaml.Setting.rawLine 0))) := by
    subst hw ha''
    exact .intro (.requested (by decide)) rfl (by decide +kernel)
  have hbreaks : Misconfigured w a'' .configurationReader := by
    have hstandard : w.readers = .standard := by rw [hw]
    have hletter : Yaml.plainScalar none ['a'] = .ok (.text "a") := by rfl
    have hplain : Yaml.Setting.Plain ⟨['a'], some .truth, "foo".toList⟩ :=
      ⟨by decide, by decide⟩
    have hword : "foo".toList.map Char.toLower ∉ Yaml.truthWords.map (·.1) := by decide
    refine .reader ?_
    rw [hstandard]
    exact Configuration.breaks_of_settings hwritten'' (by decide +kernel) (by simpa using hplain)
      (by simp) hletter hword
  have hlists : List.Forall₂ (ReadAlike w.files w.files) [some "a.txt"] [some "a.txt"] :=
    .cons (.path (fun _ => Iff.rfl) Iff.rfl) .nil
  have hnamed : FileTree.Named w.files.workingDirectory := by
    rw [hw]
    exact fun _ h => absurd h List.not_mem_nil
  have hlog : Loggable w a := by
    refine ⟨hnamed, ?_⟩
    subst hw ha
    rintro path hpath -
    obtain rfl : "b.txt" = path := Option.some.inj hpath
    refine ⟨["b.txt"], .empty, by rfl, ?_⟩
    intro list hlist
    obtain rfl : list = "a.txt" := Option.some.inj (List.mem_singleton.1 hlist)
    decide +kernel
  have hlog' : Loggable w a' := loggable_of_logFile_eq_none hnamed (by rw [ha'])
  have hlog'' : Loggable w a'' := loggable_of_logFile_eq_none hnamed (by rw [ha''])
  have hshort : Short "1.x" := by decide +kernel
  obtain ⟨report, report', hrun, hrun', -, -, hagree⟩ :=
    run_depends_on_effective hargs hargs' (by subst ha ha'; exact ⟨rfl, rfl, rfl, rfl, rfl⟩)
      (by subst ha ha'; exact hlists) (by subst ha; exact hshort) hlog hlog'
  obtain ⟨report'', -, hrun'', -, hfails, -, -⟩ :=
    run_depends_on_effective hargs'' hargs' (by subst ha' ha''; exact ⟨rfl, rfl, rfl, rfl, rfl⟩)
      (by subst ha' ha''; exact hlists) (by subst ha''; exact hshort) hlog'' hlog'
  obtain ⟨settings, settings', hsettles, hsettles', hequal, -⟩ :=
    hagree hsays.configured hconfigured'
  have hsilent : ∀ c, ¬ EnvironmentSays w.env c := by
    rintro c ⟨s, hs, -⟩
    rw [hw] at hs
    exact absurd hs (by simp)
  have htrue : true = settings.includePrerelease :=
    (Effective.configuration (by rw [ha]) hsilent hsays).unique FileSays.unique hsettles.effective
  have htrue' : true = settings'.includePrerelease :=
    (Effective.commandLine (by rw [ha'])).unique FileSays.unique hsettles'.effective
  obtain ⟨houtput, hending⟩ := hequal (htrue.symm.trans htrue')
  obtain ⟨houtput'', hending''⟩ := hfails _ hbreaks
  exact ⟨w, report, report', report'', hw, hrun, hrun', hrun'', houtput, hending, houtput'',
    hending''⟩

end SemverRange.Command
