import SemverRange.Command.Arguments

/-!
# Usage

**Usage** (`Arguments.usage`). The options and operands in one line. **Help** (`Arguments.help`).
The usage, and a line for every option.

Every option has a line (`mem_shown`).
-/

namespace SemverRange.Arguments

/-- The options in the order in which help shows them. -/
def shown : List Switch :=
  [.help, .listFile, .format, .max, .includePrerelease, .config, .logLevel, .logFile, .quiet]

theorem mem_shown (o : Switch) : o ∈ shown := by cases o <;> decide

namespace Switch

/-- The names of an option, the short one first. -/
def names (o : Switch) : List String :=
  (letters.filter (·.2 = o)).map (fun entry => String.ofList ['-', entry.1]) ++
    (longNames.filter (·.2 = o)).map fun entry => String.ofList entry.1

/-- What stands for the value of an option. -/
def placeholder : Switch → String
  | listFile => " FILE"
  | format => " " ++ "|".intercalate [Format.text.name, Format.json.name]
  | config => " FILE"
  | logLevel => " " ++ "|".intercalate (Level.all.map (·.name))
  | logFile => " FILE"
  | help | max | includePrerelease | quiet => ""

def purpose : Switch → String
  | help => "show this help and exit"
  | listFile => "load candidate versions from a file, one per line"
  | format => "output format"
  | max => "print only the highest satisfying version"
  | includePrerelease => "allow pre-release versions to match any range"
  | config => "YAML or JSON config file"
  | logLevel => "logging level"
  | logFile => "log output file"
  | quiet => "do not output to console"

end Switch

def usage : String :=
  "usage: npmrange" ++
    String.join (shown.map fun o => " [" ++ (o.names.head?.getD "") ++ o.placeholder ++ "]") ++
    " REQUIREMENT [VERSION ...]\n"

def help : String :=
  usage ++ "\nCheck versions against NPM semver requirements\n\noptions:\n" ++
    String.join (shown.map fun o =>
      "  " ++ ", ".intercalate o.names ++ o.placeholder ++ "\n      " ++ o.purpose ++ "\n")

end SemverRange.Arguments
