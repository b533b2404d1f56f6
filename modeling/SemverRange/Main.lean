import SemverRange.Command.Run
import SemverRange.Command.Usage
import Std.Time.Format

/-!
# The program

The outermost layer: it looks at the environment and the files that a run may ask for, has the run
computed (`Command.run`), and carries the report out. Help ends with code 0 and a wrong command
line with code 2; a failure in the middle of a run ends with code 1.
-/

namespace SemverRange.Program

/-- The texts of the paths that a run may look at. -/
def watched (home : String) (a : Arguments) : List String :=
  Configuration.usualPaths home ++ a.config.join.toList ++ a.listFiles.filterMap id ++
    a.logFile.join.toList

/-- The places on the way from `here` along names. -/
def places (here : List String) : List String → List (List String)
  | [] => [here]
  | name :: names => here :: places (FileTree.simplify here [name]) names

/-- The error number for reading a directory as a file. -/
def directoryError : UInt32 := 21

/-- What is at a place, if it can be read. -/
def look (place : List String) : IO (Option Entry) := do
  match ← (IO.FS.readBinFile ("/" ++ "/".intercalate place)).toBaseIO with
  | .ok bytes => return some (.file bytes)
  | .error (.inappropriateType _ code _) =>
    return if code = directoryError then some .directory else none
  | .error _ => return none

/-- The working directory and the places along the given paths. -/
def files (paths : List String) : IO FileTree := do
  let empty : FileTree := ⟨[], (FileTree.names (← IO.currentDir).toString).filter (!·.isEmpty)⟩
  let wanted := (paths.filter fun path => !path.toList.contains '\x00').flatMap fun path =>
    places (empty.start path) (FileTree.names path)
  let found ← wanted.eraseDups.filterMapM fun place => do
    return (← look place).map fun entry => (place, entry)
  return { empty with entries := found }

/-- The environment variables of the settings. -/
def environment : IO (String → Option String) := do
  let names := [Settings.prereleaseVariable, Settings.levelVariable]
  let values ← names.filterMapM fun name => do
    return (← IO.getEnv name).map fun value => (name, value)
  return fun name => values.lookup name

/-- The message on a failure that ended a run. -/
def message : Command.Failure → String
  | .unreadableNumber => "a number has too many digits to be read"
  | .unwritableNumber => "a number has too many digits to be written"
  | .undecodableText => "a list file is not valid UTF-8"
  | .pathlessListFile => "a list file is asked for without a path"
  | .configurationReader => "the configuration file has a value that cannot be read"
  | .logFile e => "the log file cannot be opened" ++ reason e
  | .listFile e => "a list file cannot be opened" ++ reason e
where
  reason (e : OpenError) : String := ((e.reason?).map fun found => ": " ++ found.2).getD ""

/-- Appends the records of a run to its log file, each with the time. -/
def writeLog (r : Command.Report) : IO Unit := do
  if let some log := r.logFile then
    let now := (← Std.Time.PlainDateTime.now).format "uuuu-MM-dd HH:mm:ss,SSS"
    IO.FS.withFile ("/" ++ "/".intercalate log.path) .append fun handle =>
      r.records.forM fun record => handle.putStr (now ++ " " ++ record.fileLine)

/-- Carries out a report; the result is the exit code. -/
def carryOut (r : Command.Report) : IO UInt32 := do
  writeLog r
  IO.eprint r.stderr
  IO.print r.stdout
  match r.ending with
  | .exit code => return UInt32.ofNat code.number
  | .failure f =>
    IO.eprintln ("npmrange: " ++ message f)
    return 1

/-- The program on a command line; the result is the exit code. -/
def run (args : List String) : IO UInt32 := do
  match Arguments.parse args with
  | .error .help =>
    IO.print Arguments.help
    return 0
  | .error .usage =>
    IO.eprint Arguments.usage
    return 2
  | .ok a =>
    -- without a home directory the usual path below it is taken as it is written
    let home := (← IO.getEnv "HOME").getD "~"
    carryOut (Command.runWith ⟨← environment, home, ← files (watched home a), .standard⟩ a)

end SemverRange.Program

def main (args : List String) : IO UInt32 := SemverRange.Program.run args
