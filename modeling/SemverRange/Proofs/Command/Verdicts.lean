import SemverRange.Proofs.Command.Arguments
import SemverRange.Proofs.Command.Files
import SemverRange.Proofs.Command.Steps
import SemverRange.Proofs.Requirement.Choice
import SemverRange.Proofs.Requirement.Writing

/-!
# What a run says about the candidates

**Candidates.** Those among the arguments come first, then the lines of the list files (`Lists`).
The log file of a run grows while the run goes on, so it is none of its list files (`Listed`);
opening it leaves these as they are.

**Rows.** There is one row for each candidate, in order. It says whether the candidate is a version
that the requirement accepts, and has a message if it is none (`Row.Judges`).

**The best candidate** is chosen among the versions that the requirement accepts, and these are the
candidates of which a row says so (`satisfying`). So a run that asks for the best one and a run that
asks for all rows agree, although they come to their answers by different ways.

**Printing.** What a run prints is determined by its answer, the format and whether it is quiet
(`rowLines`, `bestLines`, `rangeLines`).

Main result: `run_verdicts`.
-/

namespace SemverRange.Command

open Step

/-! ## List files -/

/-- The list files can be read, and together they have the given candidates. -/
inductive Lists (files : FileTree) : List (Option String) → List String → Prop
  | nil : Lists files [] []
  | cons {path : String} {bytes : ByteArray} {cs : List Char} {rest : List (Option String)}
      {listed : List String} : files.read path = .ok bytes → Text.decode? bytes = some cs →
      Lists files rest listed → Lists files (some path :: rest) (candidates cs ++ listed)

/-- The list files of a run have the given candidates, and none of them is its log file. The working
directory, as that of every process, is a path of proper names. -/
structure Listed (w : Surroundings) (a : Arguments) (listed : List String) : Prop where
  lists : Lists w.files a.listFiles listed
  working : FileTree.Named w.files.workingDirectory
  apart : ∀ path target before, a.logFile.join = some path →
    w.files.openForAppend path = .ok (target, before) → ∀ list, some list ∈ a.listFiles →
      FileTree.simplify (w.files.start list) (FileTree.names list) ≠ target

theorem Lists.mono {files files' : FileTree} {lists : List (Option String)} {listed : List String}
    (h : Lists files lists listed) (hread : ∀ path bytes, some path ∈ lists →
      files.read path = .ok bytes → files'.read path = .ok bytes) : Lists files' lists listed := by
  induction h with
  | nil => exact .nil
  | cons hbytes hdecode _ ih =>
    refine .cons (hread _ _ List.mem_cons_self hbytes) hdecode (ih fun path bytes hpath => ?_)
    exact hread path bytes (List.mem_cons_of_mem _ hpath)

/-- The log file leaves the list files as they are. -/
theorem Listed.lists_of_prepared {w : Surroundings} {a : Arguments} {settings : Settings}
    {files : FileTree} {listed : List String} (h : Listed w a listed)
    (hw : Prepared w a settings files) : Lists files a.listFiles listed := by
  have hfiles := hw.files
  cases hlog : a.logFile.join.filter (!·.isEmpty) with
  | none =>
    rw [hlog] at hfiles
    obtain rfl : files = w.files := hfiles
    exact h.lists
  | some log =>
    rw [hlog] at hfiles
    obtain ⟨target, before, hopen, rfl⟩ := hfiles
    have hgiven : a.logFile.join = some log := (Option.filter_eq_some_iff.1 hlog).1
    apply h.lists.mono
    intro path bytes hpath hread
    exact (FileTree.read_withFile h.working hopen
      (h.apart log target before hgiven hopen path hpath)).2 hread

theorem yields_readList {threshold : Nat} {files : FileTree} {path : String} {bytes : ByteArray}
    {cs : List Char} (hread : files.read path = .ok bytes)
    (hdecode : Text.decode? bytes = some cs) :
    Yields (readList threshold files path) (.ok (candidates cs)) [] := by
  unfold readList
  simp only [hread, hdecode]
  exact Yields.pure _

theorem yields_readLists {threshold : Nat} {files : FileTree} {lists : List (Option String)}
    {listed : List String} (h : Lists files lists listed) :
    Yields (readLists threshold files lists) (.ok listed) [] := by
  induction h with
  | nil => exact Yields.pure []
  | cons hread hdecode _ ih =>
    exact (yields_readList hread hdecode).after (ih.after (Yields.pure _))

/-! ## Rows -/

/-- The row says whether its candidate is an accepted version, and why it is none. -/
structure Row.Judges (row : Row) (r : Requirement) : Prop where
  satisfied : row.satisfied = true ↔
    ∃ v, Version.parse row.version = .ok v ∧ r.accepts v = true
  error : row.error = match Version.parse row.version with
    | .ok _ => none
    | .error e => some e.message

theorem version_row (r : Requirement) (candidate : String) :
    (row r candidate).version = candidate := by
  unfold row
  split <;> rfl

theorem row_of_parse {r : Requirement} {candidate : String} {v : Version}
    (h : Version.parse candidate = .ok v) :
    row r candidate = ⟨candidate, r.accepts v, none⟩ := by
  simp [row, Requirement.check, Candidate.read, h, Functor.map, Except.map]

theorem row_of_parse_error {r : Requirement} {candidate : String} {e : InvalidVersion}
    (h : Version.parse candidate = .error e) :
    row r candidate = ⟨candidate, false, some e.message⟩ := by
  simp [row, Requirement.check, Candidate.read, h, Functor.map, Except.map]

theorem judges_row (r : Requirement) (candidate : String) : (row r candidate).Judges r := by
  cases h : Version.parse candidate with
  | ok v =>
    rw [row_of_parse h]
    exact ⟨by simp [h], by simp [h]⟩
  | error e =>
    rw [row_of_parse_error h]
    exact ⟨by simp [h], by simp [h]⟩

theorem judges_rows (r : Requirement) (cs : List String) : ∀ row ∈ rows r cs, row.Judges r := by
  intro row hrow
  obtain ⟨c, -, rfl⟩ := List.mem_map.1 hrow
  exact judges_row r c

theorem map_version_rows (r : Requirement) (cs : List String) :
    (rows r cs).map (·.version) = cs := by
  induction cs with
  | nil => rfl
  | cons c cs ih =>
    show (row r c).version :: (rows r cs).map (·.version) = c :: cs
    rw [version_row, ih]

/-- The versions of which the rows say that they are accepted. -/
def satisfying (rs : List Row) : List Version :=
  (rs.filter (·.satisfied)).filterMap fun row => (Version.parse row.version).toOption

theorem filter_text_cons (r : Requirement) (c : String) (cs : List String) :
    r.filter ((c :: cs).map .text) =
      (Version.parse c).toOption.toList.filter r.accepts ++ r.filter (cs.map .text) := by
  have hread : (Candidate.text c).read = Version.parse c := rfl
  rw [List.map_cons, Requirement.filter, Requirement.filter, List.filterMap_cons, hread]
  cases (Version.parse c).toOption with
  | none => rfl
  | some v => exact List.filter_append [v] _

theorem exists_parse_of_mem_filter {r : Requirement} {cs : List String} {v : Version}
    (h : v ∈ r.filter (cs.map .text)) : ∃ s, Version.parse s = .ok v := by
  obtain ⟨⟨c, hc, hread⟩, -⟩ := Requirement.mem_filter.1 h
  obtain ⟨s, -, rfl⟩ := List.mem_map.1 hc
  exact ⟨s, eq_ok_of_toOption hread⟩

/-- The rows and the filter agree on what is accepted. -/
theorem satisfying_rows (r : Requirement) (cs : List String) :
    satisfying (rows r cs) = r.filter (cs.map .text) := by
  induction cs with
  | nil => rfl
  | cons c cs ih =>
    rw [filter_text_cons, ← ih]
    show satisfying (row r c :: rows r cs) = _
    cases h : Version.parse c with
    | ok v =>
      rw [row_of_parse h]
      by_cases haccepts : r.accepts v = true
      · simp [satisfying, haccepts, h, Except.toOption]
      · simp [satisfying, haccepts, Except.toOption]
    | error e =>
      rw [row_of_parse_error h]
      simp [satisfying, Except.toOption]

theorem satisfying_eq_nil_iff {r : Requirement} {rs : List Row} (h : ∀ row ∈ rs, row.Judges r) :
    satisfying rs = [] ↔ ∀ row ∈ rs, row.satisfied = false := by
  unfold satisfying
  rw [List.filterMap_eq_nil_iff]
  constructor
  · intro hnone row hrow
    rw [← Bool.not_eq_true]
    intro hsatisfied
    obtain ⟨v, hv, -⟩ := (h row hrow).satisfied.1 hsatisfied
    have := hnone row (List.mem_filter.2 ⟨hrow, hsatisfied⟩)
    rw [hv] at this
    exact absurd this (by simp [Except.toOption])
  · intro hfalse row hrow
    obtain ⟨hmem, hsatisfied⟩ := List.mem_filter.1 hrow
    rw [hfalse row hmem] at hsatisfied
    exact absurd hsatisfied (by decide)

/-! ## Answers -/

/-- What is printed if the run is not quiet. -/
def unlessQuiet (a : Arguments) (lines : List String) : List String :=
  if a.quiet then [] else lines

/-- What a run prints about its rows. -/
def rowLines (a : Arguments) (r : Requirement) (rs : List Row) : List String :=
  unlessQuiet a (if a.format = some .json then
    [Json.text (object [("requirement", textValue r.raw),
      ("include_prerelease", .scalar (.bool r.includePrerelease)),
      ("results", .list (rs.map Row.document))])]
  else rs.map (·.line r.raw))

/-- What a run prints about the best candidate, which may be missing. -/
def bestLines (a : Arguments) (r : Requirement) (best : Option String) : List String :=
  unlessQuiet a (if a.format = some .json then
    [Json.text (answerBest.document r ((best.map textValue).getD (.scalar .null)))]
  else best.toList)

/-- What a run prints about the intervals of its requirement. -/
def rangeLines (a : Arguments) (r : Requirement) (ranges : String) : List String :=
  unlessQuiet a (if a.format = some .json then
    [Json.text (object [("requirement", textValue r.raw), ("ranges", textValue ranges)])]
  else [ranges])

theorem yields_emit (a : Arguments) (line : String) :
    Yields (emit a line) (.ok ()) (unlessQuiet a [line]) := by
  unfold emit unlessQuiet
  by_cases h : a.quiet = true
  · rw [if_pos h, if_pos h]
    exact Yields.pure ()
  · rw [if_neg h, if_neg h]
    exact Yields.print line

section

variable {threshold : Nat} {a : Arguments} {r : Requirement}

theorem yields_answerRanges {text : String} (htext : r.clause.text? = some text) :
    Yields (answerRanges a r) (.ok .success) (rangeLines a r text) := by
  unfold answerRanges rangeLines
  apply (Yields.orFail _ htext).after
  by_cases hjson : a.format = some .json
  · simp only [if_pos hjson]
    exact (yields_emit a _).before (Yields.pure _)
  · simp only [if_neg hjson]
    exact (yields_emit a _).before (Yields.pure _)

theorem flatMap_unlessQuiet (a : Arguments) {α : Type} (f : α → String) (xs : List α) :
    xs.flatMap (fun x => unlessQuiet a [f x]) = unlessQuiet a (xs.map f) := by
  unfold unlessQuiet
  by_cases h : a.quiet = true
  · simp [h]
  · simp [h, List.map_eq_flatMap]

/-- Logs why a candidate is no version. -/
def warn (threshold : Nat) (row : Row) : Step Unit := do
  if let some message := row.error then Step.log threshold (.plain .warning source message)

theorem yields_warn (row : Row) : Yields (warn threshold row) (.ok ()) [] := by
  unfold warn
  cases row.error with
  | none => exact Yields.pure ()
  | some message => exact Yields.log _ _

theorem yields_answerRows (cs : List String) :
    Yields (answerRows threshold a r cs) (.ok (exitOfRows (rows r cs)))
      (rowLines a r (rows r cs)) := by
  have hwarnings : Yields ((rows r cs).forM (warn threshold)) (.ok ()) [] :=
    Yields.forM_silent _ yields_warn
  unfold answerRows rowLines
  apply hwarnings.after
  by_cases hjson : a.format = some .json
  · simp only [if_pos hjson]
    exact (yields_emit a _).before (Yields.pure _)
  · simp only [if_neg hjson]
    rw [← flatMap_unlessQuiet]
    exact (Yields.forM fun v : Row => yields_emit a (v.line r.raw)).before (Yields.pure _)

/-- Candidates that are no versions are passed over without a word. -/
theorem yields_skipped (threshold : Nat) (cs : List String) : Yields (cs.forM fun c => do
    if (Version.parse c).toOption.isNone then Step.log threshold (skippedRecord c)) (.ok ()) [] := by
  apply Yields.forM_silent
  intro c
  by_cases h : (Version.parse c).toOption.isNone = true
  · rw [if_pos h]
    exact Yields.log _ _
  · rw [if_neg h]
    exact Yields.pure ()

theorem yields_answerBest_none {cs : List String}
    (h : r.maxSatisfying (cs.map .text) = none) :
    Yields (answerBest threshold a r cs) (.ok .noMatch) (bestLines a r none) := by
  unfold answerBest bestLines
  apply (yields_skipped threshold cs).after
  simp only [h]
  by_cases hjson : a.format = some .json
  · simp only [if_pos hjson]
    exact (yields_emit a _).before (Yields.pure _)
  · simp only [if_neg hjson]
    have hlines : unlessQuiet a [] = [] := by simp [unlessQuiet]
    rw [Option.toList_none, hlines]
    exact Yields.pure _

theorem yields_answerBest {cs : List String} {m : Version} {text : String}
    (h : r.maxSatisfying (cs.map .text) = some m) (htext : m.text? = some text) :
    Yields (answerBest threshold a r cs) (.ok .success) (bestLines a r (some text)) := by
  unfold answerBest bestLines
  apply (yields_skipped threshold cs).after
  simp only [h]
  apply (Yields.orFail _ htext).after
  by_cases hjson : a.format = some .json
  · simp only [if_pos hjson]
    exact (yields_emit a _).before (Yields.pure _)
  · simp only [if_neg hjson]
    exact (yields_emit a _).before (Yields.pure _)

end

/-! ## Runs -/

/-- The best candidate has a text, as it was read from one. -/
theorem exists_text?_of_maxSatisfying {r : Requirement} {cs : List String} {m : Version}
    (h : r.maxSatisfying (cs.map .text) = some m) : ∃ text, m.text? = some text := by
  obtain ⟨s, hs⟩ := exists_parse_of_mem_filter (Requirement.firstHighest_of_highest h).mem
  exact Version.exists_text? (Version.writable_of_parse hs)

section

variable {w : Surroundings} {a : Arguments} {settings : Settings} {files : FileTree}
  {listed : List String} {r : Requirement} {text : String}
  (hw : Prepared w a settings files) (hlisted : Listed w a listed)
  (hr : Requirement.build a.requirement settings.includePrerelease = .ok r)
  (htext : r.clause.text? = some text)
include hw hlisted hr htext

/-- A run whose requirement can be built and written ends with its answer. -/
theorem runWith_of_answer {code : ExitCode} {lines : List String}
    (h : Yields (answer (Log.threshold (some settings.logLevel)) a r (a.versions ++ listed))
      (.ok code) lines) :
    (runWith w a).output = lines ∧ (runWith w a).ending = .exit code :=
  runWith_of_yields hw fun _ =>
    yields_course_of_answer (yields_build _ hr htext)
      (yields_readLists (hlisted.lists_of_prepared hw)) h

theorem runWith_ranges (hmax : a.max = false) (hnone : a.versions ++ listed = []) :
    (runWith w a).output = rangeLines a r text ∧ (runWith w a).ending = .exit .success := by
  apply runWith_of_answer hw hlisted hr htext
  rw [answer, hmax, hnone]
  exact yields_answerRanges htext

theorem runWith_rows (hmax : a.max = false) (hsome : a.versions ++ listed ≠ []) :
    (runWith w a).output = rowLines a r (rows r (a.versions ++ listed)) ∧
      (runWith w a).ending = .exit (exitOfRows (rows r (a.versions ++ listed))) := by
  apply runWith_of_answer hw hlisted hr htext
  have hempty : (a.versions ++ listed).isEmpty = false := by simpa using hsome
  rw [answer, hmax, hempty]
  exact yields_answerRows _

theorem runWith_best (hmax : a.max = true)
    (h : ∃ row ∈ rows r (a.versions ++ listed), row.satisfied = true) :
    (runWith w a).ending = .exit .success ∧
      ∃ m best, Requirement.FirstHighest (satisfying (rows r (a.versions ++ listed))) m ∧
        m.text? = some best ∧ (runWith w a).output = bestLines a r (some best) := by
  obtain ⟨row, hrow, hsatisfied⟩ := h
  have hsome : satisfying (rows r (a.versions ++ listed)) ≠ [] := fun hnil =>
    absurd ((satisfying_eq_nil_iff (judges_rows r _)).1 hnil row hrow) (by simp [hsatisfied])
  obtain ⟨v, hv⟩ := List.exists_mem_of_ne_nil _ hsome
  obtain ⟨m, hm, -⟩ := Requirement.exists_highest_of_mem hv
  have hhighest : r.maxSatisfying ((a.versions ++ listed).map .text) = some m := by
    rw [Requirement.maxSatisfying, ← satisfying_rows, hm]
  obtain ⟨best, hbest⟩ := exists_text?_of_maxSatisfying hhighest
  obtain ⟨houtput, hending⟩ := runWith_of_answer hw hlisted hr htext (by
    rw [answer, hmax]
    exact yields_answerBest hhighest hbest)
  exact ⟨hending, m, best, Requirement.firstHighest_of_highest hm, hbest, houtput⟩

theorem runWith_best_none (hmax : a.max = true)
    (h : ∀ row ∈ rows r (a.versions ++ listed), row.satisfied = false) :
    (runWith w a).output = bestLines a r none ∧ (runWith w a).ending = .exit .noMatch := by
  have hnone : satisfying (rows r (a.versions ++ listed)) = [] :=
    (satisfying_eq_nil_iff (judges_rows r _)).2 h
  rw [satisfying_rows] at hnone
  apply runWith_of_answer hw hlisted hr htext
  rw [answer, hmax]
  apply yields_answerBest_none
  rw [Requirement.maxSatisfying, hnone]
  rfl

end

/-- **What a run says about its candidates.** For an acceptable requirement whose numbers have a
digit to spare, a run without `--max` prints a row for each candidate, or the intervals if there is
none, and a run with `--max` prints the first of the highest versions among the satisfied rows. The
exit codes say whether all rows are satisfied, or some row. -/
theorem run_verdicts {w : Surroundings} {argv : List String} {a : Arguments}
    (hargs : Arguments.parse argv = .ok a) {settings : Settings} {files : FileTree}
    (hw : Prepared w a settings files) {listed : List String} (hlisted : Listed w a listed)
    {r : Requirement} (hr : Requirement.build a.requirement settings.includePrerelease = .ok r)
    {o : Outline} (ho : Outline.parse a.requirement = .ok o)
    (hdigits : o.Within (Numeral.limit - 1)) :
    ∃ check best rs, run w argv = .ok check ∧ run w ("--max" :: argv) = .ok best ∧
      rs.map (·.version) = a.versions ++ listed ∧ (∀ row ∈ rs, row.Judges r) ∧
      (a.max = false → rs ≠ [] → check.output = rowLines a r rs ∧
        check.ending = .exit (if ∀ row ∈ rs, row.satisfied = true then .success else .noMatch)) ∧
      (a.max = false → rs = [] → check.ending = .exit .success ∧
        ∃ text, r.clause.text? = some text ∧ check.output = rangeLines a r text) ∧
      ((∃ row ∈ rs, row.satisfied = true) → best.ending = .exit .success ∧
        ∃ m text, Requirement.FirstHighest (satisfying rs) m ∧ m.text? = some text ∧
          best.output = bestLines a r (some text)) ∧
      ((¬ ∃ row ∈ rs, row.satisfied = true) → best.ending = .exit .noMatch ∧
        best.output = bestLines a r none) := by
  obtain ⟨text, htext⟩ := Requirement.exists_text? ho hr hdigits
  have hcheck : run w argv = .ok (runWith w a) := by
    rw [run, hargs]
    rfl
  have hbest : run w ("--max" :: argv) = .ok (runWith w { a with max := true }) := by
    rw [run, Arguments.parse_cons_max hargs]
    rfl
  have hprepared : Prepared w { a with max := true } settings files := ⟨hw.settings, hw.files⟩
  have hlisted' : Listed w { a with max := true } listed :=
    ⟨hlisted.lists, hlisted.working, hlisted.apart⟩
  have hempty : rows r (a.versions ++ listed) = [] ↔ a.versions ++ listed = [] :=
    List.map_eq_nil_iff
  refine ⟨_, _, rows r (a.versions ++ listed), hcheck, hbest, map_version_rows _ _,
    judges_rows r _, ?_, ?_, ?_, ?_⟩
  · intro hmax hne
    obtain ⟨houtput, hending⟩ := runWith_rows hw hlisted hr htext hmax fun h => hne (hempty.2 h)
    refine ⟨houtput, hending.trans ?_⟩
    simp only [exitOfRows, List.all_eq_true]
  · intro hmax hnil
    obtain ⟨houtput, hending⟩ := runWith_ranges hw hlisted hr htext hmax (hempty.1 hnil)
    exact ⟨hending, text, htext, houtput⟩
  · intro hsome
    exact runWith_best hprepared hlisted' hr htext rfl hsome
  · intro hnone
    obtain ⟨houtput, hending⟩ := runWith_best_none hprepared hlisted' hr htext rfl fun row hrow =>
      Bool.not_eq_true _ ▸ fun hsatisfied => hnone ⟨row, hrow, hsatisfied⟩
    exact ⟨hending, houtput⟩

theorem run_verdicts_one_accepted : ∃ check best,
    run ⟨fun _ => none, "", ⟨[], []⟩, .standard⟩ ["1.x", "1.0.0", "a"] = .ok check ∧
    run ⟨fun _ => none, "", ⟨[], []⟩, .standard⟩ ["--max", "1.x", "1.0.0", "a"] = .ok best ∧
    check.ending = .exit .noMatch ∧ best.ending = .exit .success := by
  have hargs : Arguments.parse ["1.x", "1.0.0", "a"] = .ok ⟨"1.x", ["1.0.0", "a"], [], some .text,
      false, false, none, none, none, false⟩ := by rfl
  have hw : Prepared ⟨fun _ => none, "", ⟨[], []⟩, .standard⟩ ⟨"1.x", ["1.0.0", "a"], [],
      some .text, false, false, none, none, none, false⟩ .default ⟨[], []⟩ :=
    prepared_default rfl (by decide +kernel) rfl rfl rfl
  have hlisted : Listed ⟨fun _ => none, "", ⟨[], []⟩, .standard⟩ ⟨"1.x", ["1.0.0", "a"], [],
      some .text, false, false, none, none, none, false⟩ [] :=
    ⟨.nil, fun _ h => absurd h List.not_mem_nil, fun _ _ _ _ _ _ h => absurd h List.not_mem_nil⟩
  obtain ⟨r, hr, haccepts⟩ : ∃ r, Requirement.build "1.x" false = .ok r ∧
      r.accepts ⟨⟨1, 0, 0⟩, [], []⟩ = true :=
    Requirement.exists_build_of_accepts (by decide +kernel)
  have hparsed : (Outline.parse "1.x").toOption.any fun o =>
      decide (o.Within (Numeral.limit - 1)) := by decide +kernel
  obtain ⟨o, ho, hwithin⟩ := (Option.any_eq_true _ _).1 hparsed
  obtain ⟨check, best, rs, hcheck, hbest, hversions, hjudges, hrows, -, hsome, -⟩ :=
    run_verdicts hargs hw hlisted hr (eq_ok_of_toOption ho) (of_decide_eq_true hwithin)
  have hmem : ∀ c ∈ ["1.0.0", "a"], ∃ row ∈ rs, row.version = c := by
    intro c hc
    exact List.mem_map.1 (hversions ▸ hc)
  obtain ⟨first, hfirst, hone⟩ := hmem "1.0.0" (by decide)
  obtain ⟨second, hsecond, hletter⟩ := hmem "a" (by decide)
  have hsatisfied : first.satisfied = true :=
    (hjudges first hfirst).satisfied.2 ⟨_, hone ▸ by rfl, haccepts⟩
  have hunsatisfied : ¬ ∀ row ∈ rs, row.satisfied = true := by
    intro h
    obtain ⟨v, hv, -⟩ := (hjudges second hsecond).satisfied.1 (h second hsecond)
    have hletters : (Version.parse "a").toOption = none := by decide +kernel
    rw [hletter] at hv
    rw [hv] at hletters
    exact absurd hletters (by simp [Except.toOption])
  obtain ⟨-, hending⟩ := hrows rfl (List.ne_nil_of_mem hfirst)
  rw [if_neg hunsatisfied] at hending
  exact ⟨check, best, hcheck, hbest, hending, (hsome ⟨first, hfirst, hsatisfied⟩).1⟩

/-- A quiet run prints no row for its candidates. -/
theorem run_quiet : ∃ a r report, Arguments.parse ["1.x", "1.0.0", "-q"] = .ok a ∧
    a.versions = ["1.0.0"] ∧ a.max = false ∧ Requirement.build a.requirement false = .ok r ∧
    run ⟨fun _ => none, "", ⟨[], []⟩, .standard⟩ ["1.x", "1.0.0", "-q"] = .ok report ∧
    report.output = [] ∧ report.ending = .exit .success := by
  obtain ⟨r, hr, -⟩ : ∃ r, Requirement.build "1.x" false = .ok r ∧
      r.accepts ⟨⟨1, 0, 0⟩, [], []⟩ = true :=
    Requirement.exists_build_of_accepts (by decide +kernel)
  have hreport : (runWith ⟨fun _ => none, "", ⟨[], []⟩, .standard⟩ ⟨"1.x", ["1.0.0"], [],
      some .text, false, false, none, none, none, true⟩).output = [] ∧
      (runWith ⟨fun _ => none, "", ⟨[], []⟩, .standard⟩ ⟨"1.x", ["1.0.0"], [], some .text, false,
        false, none, none, none, true⟩).ending = .exit .success := by decide +kernel
  exact ⟨_, r, _, by rfl, rfl, rfl, hr, by rfl, hreport⟩

end SemverRange.Command
