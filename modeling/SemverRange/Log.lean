import SemverRange.Document.Basic
import SemverRange.Text.Upper

/-!
# Log records

**Levels** (`Level`). Five levels with numbers in steps of ten. A record is shown if its number is
at least that of the threshold. **Thresholds by name** (`Log.threshold`): the levels, two more
names for them and one for no threshold; case does not matter and any other name stands for the
level of information.

**Lines** (`Record.consoleLine`, `Record.fileLine`). The console shows the level in brackets, a
log file the level and the part of the program that speaks.

**State** (`Log.Setup`). A threshold and a number of handlers. Setting up again changes the
threshold alone.

Main statement: `handlers_configureAll`, one handler however often it is set up.
-/

namespace SemverRange

/-- How serious a record is. -/
inductive Level where
  | debug
  | info
  | warning
  | error
  | critical
  deriving DecidableEq

namespace Level

def name : Level → String
  | debug => "DEBUG"
  | info => "INFO"
  | warning => "WARNING"
  | error => "ERROR"
  | critical => "CRITICAL"

def number : Level → Nat
  | debug => 10
  | info => 20
  | warning => 30
  | error => 40
  | critical => 50

def all : List Level := [debug, info, warning, error, critical]

/-- The level with the given name, in any case. -/
def ofName? (s : String) : Option Level := all.find? (·.name == Text.upper s)

end Level

/-- A message of the program. A record may add a detail whose wording is not fixed. -/
structure Record where
  level : Level
  source : String
  message : String
  detail : String
  deriving DecidableEq

namespace Record

def plain (level : Level) (source message : String) : Record := ⟨level, source, message, ""⟩

/-- The message with its detail. -/
def text (r : Record) : String := r.message ++ r.detail

def consoleLine (r : Record) : String := "[" ++ r.level.name ++ "] " ++ r.text ++ "\n"

/-- The line in a log file, after the time. -/
def fileLine (r : Record) : String := r.level.name ++ " " ++ r.source ++ " " ++ r.text ++ "\n"

end Record

namespace Log

/-- The fields that go along with a record: those that have a value. -/
def context (fields : List (Scalar × Document)) : List (Scalar × Document) :=
  fields.filter fun (_, d) => !d.isNull

/-- The thresholds by upper-case name. -/
def thresholds : List (String × Nat) :=
  [("NOTSET", 0), ("WARN", 30), ("FATAL", 50)] ++ Level.all.map fun l => (l.name, l.number)

/-- The threshold that a name stands for. -/
def threshold (name : Option String) : Nat :=
  match name with
  | none => Level.info.number
  | some s => (thresholds.lookup (Text.upper s)).getD Level.info.number

/-- The threshold and the number of handlers. -/
structure Setup where
  threshold : Nat
  handlers : Nat
  deriving DecidableEq

namespace Setup

/-- Before the first call: warnings are shown, and nobody handles records. -/
def initial : Setup := ⟨Level.warning.number, 0⟩

/-- Sets the threshold by name, and adds a handler if there is none yet. -/
def configure (setup : Setup) (name : Option String) : Setup :=
  ⟨Log.threshold name, if setup.handlers = 0 then 1 else setup.handlers⟩

/-- Records of the given level are shown. -/
def shows (setup : Setup) (level : Level) : Bool := setup.threshold ≤ level.number

/-- The setups after each of a sequence of calls. -/
def configureAll (setup : Setup) : List (Option String) → List Setup
  | [] => []
  | name :: names => setup.configure name :: (setup.configure name).configureAll names

theorem handlers_configureAll {names : List (Option String)} {s : Setup}
    (h : s ∈ initial.configureAll names) : s.handlers = 1 := by
  have key : ∀ (names : List (Option String)) (start : Setup), start.handlers ≤ 1 →
      ∀ s ∈ start.configureAll names, s.handlers = 1 := by
    intro names
    induction names with
    | nil => intro start _ s hs; simp [configureAll] at hs
    | cons name names ih =>
      intro start hstart s hs
      have hone : (start.configure name).handlers = 1 := by
        simp only [configure]; split <;> omega
      rcases List.mem_cons.1 hs with rfl | hs
      · exact hone
      · exact ih _ (by omega) s hs
  exact key names initial (by decide) s h

end Setup

end Log

end SemverRange
