import SemverRange.Log
import SemverRange.Text.Digit

/-!
# Command-line arguments

**Classes** (`Token.ofArgument`). Before anything is done, every argument is classified: an operand
does not start with `-`, or is `-` alone, or looks like a negative number, or is no option and has
a space; options may be spelled by a unique beginning, carry a value after `=`, or, for short
ones, directly after the letter. After `--` everything is an operand.

**Clusters** (`Cluster.ofLetters`). In the text attached to a short option without value each
letter is a further short option, up to one that takes a value: the rest is its value. A letter
that names no option is an error. An equals sign is no letter; it separates an option from its
value only directly after the name that starts the argument.

**Attached terminators** (`attachedValue`). An option to which `--` is attached is given without a
value: it counts as given, no choice is checked, and what it was before is forgotten.

**Scanning** (`Progress.scan`). Options act from left to right. The first run of operands holds the
requirement and all versions; operands after a later option belong to nothing. What belongs to
nothing is an error only at the end, so that a request for help before it is still served.
-/

namespace SemverRange

/-- How the answer is printed. -/
inductive Format where
  | text
  | json
  deriving DecidableEq

namespace Format

def name : Format → String
  | text => "text"
  | json => "json"

/-- The format with the given name, in any case. -/
def ofName? (s : String) : Option Format := [text, json].find? (·.name == Text.lowerAscii s)

end Format

/-- What the command line asks for. Of an option that may be absent, the outer `Option` says
whether it was given and the inner one whether it was given with a value; a list file and a format
are always given, if only by default. -/
structure Arguments where
  requirement : String
  versions : List String
  listFiles : List (Option String)
  format : Option Format
  max : Bool
  includePrerelease : Bool
  config : Option (Option String)
  logLevel : Option (Option Level)
  logFile : Option (Option String)
  quiet : Bool
  deriving DecidableEq

namespace Arguments

/-- Why there is nothing to run. -/
inductive Stop where
  /-- Help was asked for. -/
  | help
  /-- The arguments make no sense. -/
  | usage
  deriving DecidableEq

inductive Switch where
  | help
  | listFile
  | format
  | max
  | includePrerelease
  | config
  | logLevel
  | logFile
  | quiet
  deriving DecidableEq

namespace Switch

def takesValue : Switch → Bool
  | listFile | format | config | logLevel | logFile => true
  | help | max | includePrerelease | quiet => false

def longNames : List (List Char × Switch) :=
  [("--help".toList, help), ("--load_list".toList, listFile), ("--format".toList, format),
    ("--max".toList, max), ("--include-prerelease".toList, includePrerelease),
    ("--config".toList, config), ("--loglevel".toList, logLevel), ("--logfile".toList, logFile),
    ("--quiet".toList, quiet)]

def letters : List (Char × Switch) :=
  [('h', help), ('l', listFile), ('f', format), ('c', config), ('q', quiet)]

/-- The option with exactly this name. -/
def ofName? (cs : List Char) : Option Switch :=
  match cs with
  | ['-', c] => letters.lookup c
  | _ => longNames.lookup cs

end Switch

/-! ## Classes of arguments -/

/-- The class of an argument. An option may have text attached to it, after an equals sign or, if
it is short, directly. -/
inductive Token where
  | operand (s : String)
  | terminator
  | short (o : Switch) (attached : Option (List Char))
  | long (o : Switch) (attached : Option (List Char))
  | unknown
  deriving DecidableEq

namespace Token

/-- A minus, digits and possibly a fraction; a line break at the end does not matter. -/
def isNegativeNumber (cs : List Char) : Bool :=
  match cs with
  | '-' :: body =>
    let body := if body.getLast? == some '\n' then body.dropLast else body
    match body.splitOn '.' with
    | [whole] => !whole.isEmpty && whole.all Text.isDigit
    | [whole, fraction] =>
      whole.all Text.isDigit && !fraction.isEmpty && fraction.all Text.isDigit
    | _ => false
  | _ => false

/-- The text before the first equals sign, and the text after it if there is one. -/
def splitValue (cs : List Char) : List Char × Option (List Char) :=
  (cs.takeWhile (· != '='), match cs.dropWhile (· != '=') with
    | [] => none
    | _ :: value => some value)

/-- The option with the given name, short or long. -/
def named (name : List Char) (o : Switch) (attached : Option (List Char)) : Token :=
  if name.length = 2 then short o attached else long o attached

/-- The class of an argument that starts with `-` but is no option. -/
def notAnOption (cs : List Char) : Token :=
  if isNegativeNumber cs || cs.contains ' ' then operand (String.ofList cs) else unknown

/-- The class of an argument that is not `--`. A beginning of several long names is an error. -/
def ofArgument (s : String) : Except Stop Token :=
  let cs := s.toList
  match cs with
  | [] => .ok (operand s)
  | ['-'] => .ok (operand s)
  | first :: second :: rest =>
    if first != '-' then .ok (operand s)
    else
      match Switch.ofName? cs with
      | some o => .ok (named cs o none)
      | none =>
        let (name, value) := splitValue cs
        match Switch.ofName? name, value with
        | some o, some value => .ok (named name o (some value))
        | _, _ =>
          if second == '-' then
            match Switch.longNames.filter fun entry => name.isPrefixOf entry.1 with
            | [] => .ok (notAnOption cs)
            | [(_, o)] => .ok (long o value)
            | _ => .error .usage
          else
            match Switch.letters.lookup second with
            | some o => .ok (short o (some rest))
            | none => .ok (notAnOption cs)
  | _ => .ok (operand s)

def ofArguments : List String → Except Stop (List Token)
  | [] => .ok []
  | s :: rest =>
    if s == "--" then .ok (terminator :: rest.map operand)
    else do
      let t ← ofArgument s
      return t :: (← ofArguments rest)

end Token

/-! ## Clusters of short options -/

/-- How a cluster ends. -/
inductive Ending where
  /-- With an option and what is attached to it. -/
  | value (o : Switch) (value : Option String)
  /-- With an option that has nothing attached. -/
  | bare (o : Switch)
  deriving DecidableEq

/-- The options of one argument: some without value, and an ending. -/
structure Cluster where
  flags : List Switch
  ending : Ending
  deriving DecidableEq

/-- The value that an attached text gives to an option; a terminator gives none. -/
def attachedValue (cs : List Char) : Option String :=
  if cs = ['-', '-'] then none else some (String.ofList cs)

namespace Cluster

/-- The cluster that starts with the short option `o` and goes on with the attached text. -/
def ofLetters (o : Switch) : List Char → Except Stop Cluster
  | [] => if o.takesValue then .ok ⟨[], .value o (attachedValue [])⟩ else .error .usage
  | c :: cs =>
    if o.takesValue then .ok ⟨[], .value o (attachedValue (c :: cs))⟩
    else
      match Switch.letters.lookup c with
      | none => .error .usage
      | some next =>
        if cs.isEmpty then .ok ⟨[o], .bare next⟩
        else (ofLetters next cs).map fun k => { k with flags := o :: k.flags }

/-- The cluster of a short option. -/
def ofShort (o : Switch) : Option (List Char) → Except Stop Cluster
  | none => .ok ⟨[], .bare o⟩
  | some attached => ofLetters o attached

/-- The cluster of a long option. -/
def ofLong (o : Switch) : Option (List Char) → Except Stop Cluster
  | none => .ok ⟨[], .bare o⟩
  | some attached =>
    if o.takesValue then .ok ⟨[], .value o (attachedValue attached)⟩ else .error .usage

end Cluster

/-! ## Scanning -/

/-- Where the first run of operands stands. -/
inductive Phase where
  | before
  | inside
  | after
  deriving DecidableEq

/-- The state of a scan. The run of operands is kept in reverse, a terminator in it as none. -/
structure Progress where
  result : Arguments
  phase : Phase
  run : List (Option String)
  leftOver : Bool
  deriving DecidableEq

namespace Progress

def initial : Progress :=
  ⟨⟨"", [], [], some .text, false, false, none, none, none, false⟩, .before, [], false⟩

/-- An option without value takes effect. -/
def applyFlag (p : Progress) : Switch → Except Stop Progress
  | .help => .error .help
  | .max => .ok { p with result := { p.result with max := true } }
  | .includePrerelease => .ok { p with result := { p.result with includePrerelease := true } }
  | .quiet => .ok { p with result := { p.result with quiet := true } }
  | _ => .error .usage

/-- The choice that a value names; no value, no choice. -/
def choice (ofName? : String → Option α) : Option String → Except Stop (Option α)
  | none => .ok none
  | some value =>
    match ofName? value with
    | some a => .ok (some a)
    | none => .error .usage

/-- An option that takes a value takes effect, if the value is one of its choices. -/
def applyValue (p : Progress) (o : Switch) (value : Option String) : Except Stop Progress :=
  match o with
  | .listFile => .ok { p with result := { p.result with listFiles := p.result.listFiles ++ [value] } }
  | .config => .ok { p with result := { p.result with config := some value } }
  | .logFile => .ok { p with result := { p.result with logFile := some value } }
  | .format => do
    let format ← choice Format.ofName? value
    return { p with result := { p.result with format := format } }
  | .logLevel => do
    let level ← choice Level.ofName? value
    return { p with result := { p.result with logLevel := some level } }
  | _ => .error .usage

/-- The options of a cluster take effect; `next` is the operand that follows it. The flag says
whether that operand was used. -/
def applyCluster (p : Progress) (k : Cluster) (next : Option String) :
    Except Stop (Progress × Bool) :=
  match k.ending with
  | .value o value => do
    let p ← k.flags.foldlM applyFlag p
    return (← p.applyValue o value, false)
  | .bare o =>
    if o.takesValue then
      match next with
      | none => .error .usage
      | some value => do
        let p ← k.flags.foldlM applyFlag p
        return (← p.applyValue o (some value), true)
    else do
      let p ← k.flags.foldlM applyFlag p
      return (← p.applyFlag o, false)

/-- One more operand, or a terminator, in the run or after it. -/
def addOperand (p : Progress) (s : Option String) : Progress :=
  match p.phase with
  | .after => { p with leftOver := true }
  | _ => { p with phase := .inside, run := s :: p.run }

/-- The run of operands, if it has begun, is over. -/
def endRun (p : Progress) : Progress :=
  match p.phase with
  | .inside => { p with phase := .after }
  | _ => p

/-- The operand at the start of the tokens. -/
def nextOperand : List Token → Option String
  | .operand s :: _ => some s
  | _ => none

/-- The state after the given tokens; `skip` says that the first of them has been used up as the
value of an option. -/
def scan (p : Progress) (skip : Bool) : List Token → Except Stop Progress
  | [] => .ok p
  | t :: rest =>
    if skip then scan p false rest
    else
      match t with
      | .operand s => scan (p.addOperand (some s)) false rest
      | .terminator => scan (p.addOperand none) false rest
      | .unknown => scan { p.endRun with leftOver := true } false rest
      | .short o attached => do
        let (p, used) ← p.endRun.applyCluster (← Cluster.ofShort o attached) (nextOperand rest)
        scan p used rest
      | .long o attached => do
        let (p, used) ← p.endRun.applyCluster (← Cluster.ofLong o attached) (nextOperand rest)
        scan p used rest

/-- The arguments of the requirement and of the versions: the requirement is the first operand,
with a terminator directly before or after it. Each part loses its first terminator. -/
def operands? (run : List (Option String)) : Option (String × List String) :=
  let spelled (s : Option String) : String := s.getD "--"
  match run with
  | none :: some r :: rest => some (r, (rest.map spelled).erase "--")
  | some r :: none :: rest => some (r, (rest.map spelled).erase "--")
  | some r :: rest => some (r, (rest.map spelled).erase "--")
  | _ => none

/-- The arguments at the end of a scan: a requirement is there and nothing is left over. -/
def finish (p : Progress) : Except Stop Arguments :=
  match operands? p.run.reverse with
  | some (requirement, versions) =>
    if p.leftOver then .error .usage
    else .ok { p.result with requirement := requirement, versions := versions }
  | none => .error .usage

end Progress

/-- The arguments that a command line gives. -/
def parse (argv : List String) : Except Stop Arguments := do
  (← Progress.initial.scan false (← Token.ofArguments argv)).finish

end Arguments

end SemverRange
