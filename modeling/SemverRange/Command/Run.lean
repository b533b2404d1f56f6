import SemverRange.Command.Arguments
import SemverRange.Command.Configuration
import SemverRange.Document.JsonText
import SemverRange.Requirement.Basic
import SemverRange.Settings

/-!
# A run of the command

**Surroundings** (`Surroundings`). The environment variables, the home directory, the files, and the
readers of configuration files.

**Course** (`run`). Arguments, configuration and settings come first; from then on records below
the threshold are dropped and the others go to the console and, if asked for, to a log file. Then
the requirement is built, the candidates are collected from the arguments and the list files, and
the answer is given: the best candidate, one row for each candidate, or the intervals of the
requirement if there are no candidates.

**Report** (`Report`). What was printed, which records were made, and how the run ended: with an
exit code, or with a failure that nothing handles. Records made before logging is set up are kept
apart (`early`), since they show as a bare message.
-/

namespace SemverRange.Command

/-- What a run depends on besides its arguments. -/
structure Surroundings where
  env : String → Option String
  home : String
  files : FileTree
  readers : Configuration.Readers

inductive ExitCode where
  | success
  | fileError
  | invalidRequirement
  | noMatch
  deriving DecidableEq

def ExitCode.number : ExitCode → Nat
  | success => 0
  | fileError => 1
  | invalidRequirement => 2
  | noMatch => 3

/-- A failure that ends the run in the middle. -/
inductive Failure where
  | unreadableNumber
  | unwritableNumber
  | undecodableText
  | pathlessListFile
  | configurationReader
  | logFile (e : OpenError)
  | listFile (e : OpenError)
  deriving DecidableEq

inductive Ending where
  | exit (code : ExitCode)
  | failure (f : Failure)
  deriving DecidableEq

/-- A log file: its path by names, and what it held before. -/
structure LogFile where
  path : List String
  before : ByteArray

/-- All that a run produces. -/
structure Report where
  output : List String
  early : List Record
  records : List Record
  logFile : Option LogFile
  ending : Ending

namespace Report

def stdout (r : Report) : String := String.join (r.output.map (· ++ "\n"))

def stderr (r : Report) : String :=
  String.join (r.early.map (·.text ++ "\n")) ++ String.join (r.records.map (·.consoleLine))

/-- The lines added to the log file, without the times. -/
def logText (r : Report) : String := String.join (r.records.map (·.fileLine))

end Report

/-! ## The course of a run -/

/-- The program's own name as the source of records. -/
def source : String := "npmrange"

/-- What has happened in a run so far. -/
structure State where
  output : List String
  records : List Record

/-- A step of a run: it goes on with a value, or ends the run; what it did so far remains. -/
abbrev Step : Type → Type := ExceptT Ending (StateM State)

namespace Step

def exit (code : ExitCode) : Step α := throw (.exit code)

def fail (f : Failure) : Step α := throw (.failure f)

/-- The value, or a failure if there is none. -/
def orFail (f : Failure) : Option α → Step α
  | some a => pure a
  | none => fail f

def print (line : String) : Step Unit :=
  modify fun s => { s with output := s.output ++ [line] }

/-- Makes a record if the threshold lets it pass. -/
def log (threshold : Nat) (r : Record) : Step Unit :=
  if threshold ≤ r.level.number then modify fun s => { s with records := s.records ++ [r] }
  else pure ()

end Step

/-! ## Requirement and candidates -/

def parsedRecord (o : Outline) : Record :=
  .plain .debug "versioning.parser" ("Parsed requirement '" ++ o.raw ++ "' into " ++
    toString o.segments.length ++ " intersection(s)")

def builtRecord : Record := .plain .debug "versioning.requirement" "Built requirement"

/-- The record of a candidate that is no version. -/
def skippedRecord (candidate : String) : Record :=
  .plain .debug "versioning.requirement" ("Skipping invalid version candidate: " ++ candidate)

/-- The value, or the end of a run whose requirement is not acceptable. -/
def accepted (threshold : Nat) : Except RequirementError α → Step α
  | .ok a => pure a
  | .error .unreadableNumber => Step.fail .unreadableNumber
  | .error e => do
    Step.log threshold (.plain .error source e.message)
    Step.exit .invalidRequirement

/-- Builds the requirement. When debug records are shown its intervals must have a text. -/
def build (threshold : Nat) (raw : String) (includePrerelease : Bool) : Step Requirement := do
  let o ← accepted threshold (Outline.parse raw)
  Step.log threshold (parsedRecord o)
  let r ← accepted threshold (Requirement.ofOutline o includePrerelease)
  if threshold ≤ Level.debug.number then
    let _ ← Step.orFail .unwritableNumber r.clause.text?
  Step.log threshold builtRecord
  return r

/-- The candidates in the text of a list file: its lines without blanks around, other than empty
lines and comments. -/
def candidates (cs : List Char) : List String :=
  (((Text.lines cs).map Text.trim).filter fun line =>
    !line.isEmpty && line.head? != some '#').map String.ofList

/-- The message of a system error on a path. -/
def systemError (number : Nat) (reason path : String) : String :=
  "[Errno " ++ toString number ++ "] " ++ reason ++ ": " ++ Text.quoted path

/-- The candidates in a list file. -/
def readList (threshold : Nat) (files : FileTree) (path : String) : Step (List String) :=
  match files.read path with
  | .ok bytes =>
    match Text.decode? bytes with
    | some cs => return candidates cs
    | none => Step.fail .undecodableText
  | .error e =>
    match e.reason? with
    | none => Step.fail (.listFile e)
    | some (number, reason) => do
      let what := if e = .absent then "File not found: " else "IO error: "
      Step.log threshold
        (.plain .error "root" (what ++ systemError number reason path ++ ", aborting"))
      Step.exit .fileError

/-- The candidates in the list files, in order. -/
def readLists (threshold : Nat) (files : FileTree) : List (Option String) → Step (List String)
  | [] => return []
  | none :: _ => Step.fail .pathlessListFile
  | some path :: rest => do
    let found ← readList threshold files path
    return found ++ (← readLists threshold files rest)

/-! ## Answers -/

/-- The verdict on one candidate; a candidate that is no version comes with a message. -/
structure Row where
  version : String
  satisfied : Bool
  error : Option String
  deriving DecidableEq

/-- The verdict of a requirement on a candidate. -/
def row (r : Requirement) (candidate : String) : Row :=
  match r.check (.text candidate) with
  | .ok satisfied => ⟨candidate, satisfied, none⟩
  | .error e => ⟨candidate, false, some e.message⟩

def rows (r : Requirement) (candidates : List String) : List Row := candidates.map (row r)

def exitOfRows (rs : List Row) : ExitCode := if rs.all (·.satisfied) then .success else .noMatch

/-- A JSON object of named values. -/
def object (fields : List (String × Document)) : Document :=
  .mapping (fields.map fun (name, d) => (.text name, d))

def textValue (s : String) : Document := .scalar (.text s)

def Row.document (r : Row) : Document :=
  object [("version", textValue r.version), ("satisfied", .scalar (.bool r.satisfied)),
    ("error", (r.error.map textValue).getD (.scalar .null))]

def Row.line (r : Row) (raw : String) : String :=
  r.version ++ (if r.satisfied then " satisfies " else " does not satisfy ") ++ raw

/-- Prints unless the run is to be quiet. -/
def emit (a : Arguments) (line : String) : Step Unit :=
  if a.quiet then pure () else Step.print line

def answerBest (threshold : Nat) (a : Arguments) (r : Requirement) (candidates : List String) :
    Step ExitCode := do
  candidates.forM fun c => do
    if (Version.parse c).toOption.isNone then Step.log threshold (skippedRecord c)
  match r.maxSatisfying (candidates.map .text) with
  | none =>
    if a.format = some .json then emit a (Json.text (document (.scalar .null)))
    return .noMatch
  | some best =>
    let text ← Step.orFail .unwritableNumber best.text?
    if a.format = some .json then emit a (Json.text (document (textValue text)))
    else emit a text
    return .success
where
  document (best : Document) : Document :=
    object [("requirement", textValue r.raw),
      ("include_prerelease", .scalar (.bool r.includePrerelease)), ("max_satisfying", best)]

def answerRanges (a : Arguments) (r : Requirement) : Step ExitCode := do
  let ranges ← Step.orFail .unwritableNumber r.clause.text?
  if a.format = some .json then
    emit a (Json.text (object [("requirement", textValue r.raw), ("ranges", textValue ranges)]))
  else emit a ranges
  return .success

def answerRows (threshold : Nat) (a : Arguments) (r : Requirement) (candidates : List String) :
    Step ExitCode := do
  let verdicts := rows r candidates
  verdicts.forM fun v => do
    if let some message := v.error then Step.log threshold (.plain .warning source message)
  if a.format = some .json then
    emit a (Json.text (object [("requirement", textValue r.raw),
      ("include_prerelease", .scalar (.bool r.includePrerelease)),
      ("results", .list (verdicts.map Row.document))]))
  else verdicts.forM fun v => emit a (v.line r.raw)
  return exitOfRows verdicts

/-- The answer of a requirement to the candidates. -/
def answer (threshold : Nat) (a : Arguments) (r : Requirement) (candidates : List String) :
    Step ExitCode :=
  if a.max then answerBest threshold a r candidates
  else if candidates.isEmpty then answerRanges a r
  else answerRows threshold a r candidates

/-! ## The run -/

/-- A run from the moment at which logging is set up. -/
def course (threshold : Nat) (a : Arguments) (includePrerelease : Bool) (files : FileTree)
    (logFile : Option String) : Step ExitCode := do
  if let some path := logFile then
    Step.log threshold (.plain .info source ("Logging to file: " ++ path))
  Step.log threshold (.plain .debug source "CLI start")
  let r ← build threshold a.requirement includePrerelease
  let listed ← readLists threshold files a.listFiles
  answer threshold a r (a.versions ++ listed)

/-- The report of a run with the given arguments and configuration. -/
def runConfigured (w : Surroundings) (a : Arguments) (config : List (Scalar × Document))
    (loading : List Record) : Report :=
  match Settings.resolve ⟨a.includePrerelease, a.logLevel.join.map (·.name)⟩ w.env config with
  | .error .number => ⟨[], loading, [], none, .failure .unwritableNumber⟩
  | .ok (settings, warnings) =>
    let threshold := Log.threshold (some settings.logLevel)
    let finished (files : FileTree) (logFile : Option LogFile) (path : Option String) : Report :=
      let (result, s) := (course threshold a settings.includePrerelease files path).run ⟨[], []⟩
      let ending := match result with
        | .ok code => .exit code
        | .error ending => ending
      ⟨s.output, loading ++ warnings, s.records, logFile, ending⟩
    match a.logFile.join.filter (!·.isEmpty) with
    | none => finished w.files none none
    | some path =>
      match w.files.openForAppend path with
      | .error e => ⟨[], loading ++ warnings, [], none, .failure (.logFile e)⟩
      | .ok (target, before) =>
        finished (w.files.withFile target before) (some ⟨target, before⟩) (some path)

/-- The report of a run with the given arguments. -/
def runWith (w : Surroundings) (a : Arguments) : Report :=
  match Configuration.load w.readers w.files w.home a.config.join with
  | none => ⟨[], [], [], none, .failure .configurationReader⟩
  | some (config, loading) => runConfigured w a config loading

/-- The report of a run of the command, unless its arguments leave nothing to run. -/
def run (w : Surroundings) (argv : List String) : Except Arguments.Stop Report := do
  return runWith w (← Arguments.parse argv)

end SemverRange.Command
