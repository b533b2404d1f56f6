import SemverRange.Document.Display
import SemverRange.Log
import SemverRange.Text.Blank

/-!
# Effective settings

Whether pre-releases are included, and the name of the log level (`Settings`). Four sources give
values, the later ones before the earlier: the defaults, a configuration, the environment, and the
command line.

**Words** (`truthWord?`). `1`, `true`, `yes`, `on` and their opposites, in any case and with blanks
around. A value that is none of these is ignored, in a configuration with a warning. A number in a
configuration counts as the word that writes it, so one too long to be written is an error.
-/

namespace SemverRange

structure Settings where
  includePrerelease : Bool
  logLevel : String
  deriving DecidableEq

/-- What the command line says about the settings. -/
structure Overrides where
  includePrerelease : Bool
  logLevel : Option String
  deriving DecidableEq

/-- A number has too many digits to be written. -/
inductive Unwritable where
  | number
  deriving DecidableEq

namespace Settings

/-- The settings of a run without any source. -/
def default : Settings := ⟨false, Level.info.name⟩

def prereleaseVariable : String := "NPMRANGE_INCLUDE_PRERELEASE"

def levelVariable : String := "NPMRANGE_LOG_LEVEL"

/-- The truth value that a word stands for. -/
def truthWord? (s : String) : Option Bool :=
  let word := Text.lowerAscii (String.ofList (Text.trim s.toList))
  if ["1", "true", "yes", "on"].contains word then some true
  else if ["0", "false", "no", "off"].contains word then some false
  else none

/-- The truth value of a configured value, if it has one. -/
def truthValue? : Document → Except Unwritable (Option Bool)
  | .scalar (.bool b) => .ok (some b)
  | .scalar (.text s) => .ok (truthWord? s)
  | d =>
    match d.display? with
    | some s => .ok (truthWord? s)
    | none => .error .number

/-- The upper-case name of the level that a text names. -/
def levelName? (s : String) : Option String := (Level.ofName? s).map (·.name)

/-- The warning about a configured value that is not a truth value. -/
def ignored (d : Document) : Record :=
  .plain .warning "settings"
    ("Ignoring invalid include_prerelease value in config: " ++ (d.display?).getD "")

/-- What the configuration says about pre-releases, with a warning if it says nothing sensible. -/
def configured (config : List (Scalar × Document)) :
    Except Unwritable (Option Bool × List Record) := do
  match Document.lookup "include_prerelease" config with
  | none => return (none, [])
  | some d =>
    match ← truthValue? d with
    | some b => return (some b, [])
    | none => return (none, [ignored d])

/-- The log level in the configuration. -/
def configuredLevel? (config : List (Scalar × Document)) : Option String :=
  match Document.lookup "log_level" config with
  | some (.scalar (.text s)) => levelName? s
  | _ => none

/-- The log level on the command line; an empty one says nothing. -/
def overridingLevel? (o : Overrides) : Option String :=
  (o.logLevel.filter (!·.isEmpty)).map Text.upper

/-- The effective settings, and the warnings given on the way. -/
def resolve (o : Overrides) (env : String → Option String) (config : List (Scalar × Document)) :
    Except Unwritable (Settings × List Record) := do
  let (fromConfig, warnings) ← configured config
  let fromEnv := (env prereleaseVariable).bind truthWord?
  let includePrerelease :=
    o.includePrerelease || (fromEnv.or fromConfig).getD default.includePrerelease
  let level := (overridingLevel? o).or
    (((env levelVariable).bind levelName?).or (configuredLevel? config))
  return (⟨includePrerelease, level.getD default.logLevel⟩, warnings)

theorem resolve_nil : resolve ⟨false, none⟩ (fun _ => none) [] = .ok (default, []) := rfl

end Settings

end SemverRange
