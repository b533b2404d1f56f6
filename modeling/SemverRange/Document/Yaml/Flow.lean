import SemverRange.Document.Json
import SemverRange.Document.Yaml.Node

/-!
# Quoted scalars and flow collections of YAML

**Quoted scalars** (`readQuoted?`). Between single quotes a quote is written twice and all else
stands for itself; between double quotes a backslash starts an escape. A quoted scalar ends on the
line on which it starts.

**Plain scalars** (`spanPlain`). A plain scalar ends before a colon that a blank follows, before a
`#` that a blank precedes, and inside a flow collection also before its punctuation.

**Flow collections** (`readFlow?`). Lists in brackets and mappings in braces on one line. A comma
may follow the last item; a mapping entry may lack its value, and a single entry may stand in a
list for a mapping of its own. Keys must be scalars.

**Tags** (`splitTag`). A tag and a space may stand before a scalar.
-/

namespace SemverRange.Yaml

/-- The blanks between tokens: spaces alone, since a tab starts no token. -/
def skipSpaces (cs : List Char) : List Char := cs.dropWhile (· == ' ')

def isBreak (c : Char) : Bool := c == ' ' || c == '\t'

/-! ## Quoted scalars -/

/-- The rest of a scalar in single quotes, and what follows it. -/
def readSingle (acc : List Char) : List Char → Option (List Char × List Char)
  | [] => none
  | '\x27' :: '\x27' :: rest => readSingle ('\x27' :: acc) rest
  | '\x27' :: rest => some (acc.reverse, rest)
  | c :: rest => readSingle (c :: acc) rest

/-- The escapes of one letter between double quotes. -/
def escapes : List (Char × Char) :=
  [('0', '\x00'), ('a', '\x07'), ('b', '\x08'), ('t', '\t'), ('\t', '\t'), ('n', '\n'),
    ('v', '\x0b'), ('f', '\x0c'), ('r', '\r'), ('e', '\x1b'), (' ', ' '), ('\"', '\"'),
    ('\\', '\\'), ('/', '/'), ('N', '\x85'), ('_', '\xa0'), ('L', '\u2028'), ('P', '\u2029')]

/-- The number of hexadecimal digits after the letter of an escape by number. -/
def escapeWidth? : Char → Option Nat
  | 'x' => some 2
  | 'u' => some 4
  | 'U' => some 8
  | _ => none

/-- The character of a number; half of a surrogate pair has none of its own. -/
def numberedChar? (n : Nat) : Option Char :=
  if n < 0x110000 then some (Json.unitChar n) else none

/-- The rest of a scalar in double quotes, and what follows it. The first argument counts the
characters that remain. -/
def readDouble : Nat → List Char → List Char → Option (List Char × List Char)
  | 0, _, _ => none
  | fuel + 1, acc, cs =>
    match cs with
    | [] => none
    | '\"' :: rest => some (acc.reverse, rest)
    | '\\' :: c :: rest =>
      match escapes.lookup c, escapeWidth? c with
      | some e, _ => readDouble fuel (e :: acc) rest
      | none, some width =>
        if rest.length < width then none
        else
          match (Json.hexNumber? (rest.take width)).bind numberedChar? with
          | some e => readDouble fuel (e :: acc) (rest.drop width)
          | none => none
      | none, none => none
    | c :: rest => if c == '\\' then none else readDouble fuel (c :: acc) rest

/-- The quoted scalar at the start, if there is a quote: its text and what follows it, or none if
it does not end. -/
def readQuoted? : List Char → Option (Option (List Char × List Char))
  | '\"' :: rest => some (readDouble (rest.length + 1) [] rest)
  | '\x27' :: rest => some (readSingle [] rest)
  | _ => none

/-! ## Plain scalars -/

def isFlowMark (c : Char) : Bool := [',', '[', ']', '\x7b', '\x7d'].contains c

/-- The characters that start no plain scalar. -/
def isIndicator (c : Char) : Bool :=
  [',', '[', ']', '\x7b', '\x7d', '#', '&', '*', '!', '|', '>', '\x27', '\"', '%', '@', Char.ofNat 96,
    ' ', '\t'].contains c

/-- A plain scalar starts here. A hyphen, and outside flow collections a question mark or colon,
needs a character other than a blank behind it. -/
def startsPlain (flow : Bool) : List Char → Bool
  | [] => false
  | c :: rest =>
    if c == '-' || c == '?' || c == ':' then
      (c == '-' || !flow) && rest.head?.any fun d => !isBreak d
    else !isIndicator c

/-- A colon at the start separates a key from its value. -/
def startsValue (flow : Bool) : List Char → Bool
  | ':' :: rest =>
    match rest with
    | [] => true
    | c :: _ => isBreak c || (flow && isFlowMark c)
  | _ => false

/-- The characters of a plain scalar up to where it ends, and the rest. The first argument says
whether a space stands before. -/
def spanPlain (flow afterSpace : Bool) : List Char → List Char × List Char
  | [] => ([], [])
  | c :: rest =>
    if c == '\t' || startsValue flow (c :: rest) || (c == '#' && afterSpace) ||
        (flow && (isFlowMark c || c == '?')) then
      ([], c :: rest)
    else
      let (text, tail) := spanPlain flow (c == ' ') rest
      (c :: text, tail)

/-- The text of a plain scalar without the spaces at its end, and the rest. -/
def readPlain (flow : Bool) (cs : List Char) : List Char × List Char :=
  let (text, rest) := spanPlain flow false cs
  ((text.reverse.dropWhile (· == ' ')).reverse, rest)

/-! ## Tags -/

/-- The tag at the start, if there is one with a space behind it, and what follows. -/
def splitTag (cs : List Char) : Option Tag × List Char :=
  let found := [Tag.text, .null, .truth].find? fun tag =>
    (tag.name.toList ++ [' ']).isPrefixOf cs
  match found with
  | some tag => (some tag, skipSpaces (cs.drop tag.name.length))
  | none => (none, cs)

/-! ## Flow collections -/

/-- The scalar at the start inside a flow collection, and what follows it. -/
def readFlowScalar (cs : List Char) : Option (Value × List Char) :=
  let (tag, body) := splitTag cs
  match readQuoted? body with
  | some found => found.map fun (text, rest) => (quotedScalar tag text, rest)
  | none =>
    if startsPlain true body then
      let (text, rest) := readPlain true body
      some (plainScalar tag text, rest)
    else none

/-- What follows the colon at the start, if a scalar that came before it is a key. After a quoted
key any colon will do. -/
def afterColon? (quoted : Bool) (cs : List Char) : Option (List Char) :=
  match skipSpaces cs with
  | ':' :: rest => if quoted || startsValue true (':' :: rest) then some rest else none
  | _ => none

/-- The text starts with a quote, perhaps behind a tag. -/
def startsQuoted (cs : List Char) : Bool := (readQuoted? (splitTag cs).2).isSome

mutual

/-- The value at the start inside a flow collection, and what follows it. -/
def readFlowValue : Nat → List Char → Option (Node × List Char)
  | 0, _ => none
  | fuel + 1, cs =>
    match skipSpaces cs with
    | '[' :: rest => readFlowItems fuel [] rest
    | '\x7b' :: rest => readFlowEntries fuel [] rest
    | rest => (readFlowScalar rest).map fun (s, rest) => (.scalar s, rest)

/-- The value after a colon, which may be missing. -/
def readEntryValue : Nat → List Char → Option (Node × List Char)
  | 0, _ => none
  | fuel + 1, cs =>
    match skipSpaces cs with
    | c :: rest =>
      if c == ',' || c == ']' || c == '\x7d' then some (.null, c :: rest)
      else readFlowValue fuel (c :: rest)
    | [] => none

/-- The items of a list up to its end; those before, in reverse, are `acc`. -/
def readFlowItems : Nat → List Node → List Char → Option (Node × List Char)
  | 0, _, _ => none
  | fuel + 1, acc, cs =>
    match skipSpaces cs with
    | ']' :: rest => some (.list acc.reverse, rest)
    | start =>
      match readFlowValue fuel start with
      | none => none
      | some (item, rest) =>
        let entry :=
          match item, afterColon? (startsQuoted start) rest with
          | .scalar key, some value =>
            (readEntryValue fuel value).map fun (v, rest) => (.mapping [(key, v)], rest)
          | item, _ => some (item, rest)
        match entry with
        | none => none
        | some (item, rest) =>
          match skipSpaces rest with
          | ',' :: rest => readFlowItems fuel (item :: acc) rest
          | ']' :: rest => some (.list (item :: acc).reverse, rest)
          | _ => none

/-- The entries of a mapping up to its end; those before, in reverse, are `acc`. -/
def readFlowEntries : Nat → List (Value × Node) → List Char → Option (Node × List Char)
  | 0, _, _ => none
  | fuel + 1, acc, cs =>
    match skipSpaces cs with
    | '\x7d' :: rest => some (.mapping acc.reverse, rest)
    | start =>
      match readFlowScalar start with
      | none => none
      | some (key, rest) =>
        let entry :=
          match afterColon? (startsQuoted start) rest with
          | some value => readEntryValue fuel value
          | none => some (.null, rest)
        match entry with
        | none => none
        | some (value, rest) =>
          match skipSpaces rest with
          | ',' :: rest => readFlowEntries fuel ((key, value) :: acc) rest
          | '\x7d' :: rest => some (.mapping ((key, value) :: acc).reverse, rest)
          | _ => none

end

/-- The flow collection at the start, if there is an opening bracket or brace: the collection and
what follows it, or none if it is malformed. -/
def readFlow? (cs : List Char) : Option (Option (Node × List Char)) :=
  match cs with
  | c :: _ => if c == '[' || c == '\x7b' then some (readFlowValue (cs.length + 1) cs) else none
  | [] => none

end SemverRange.Yaml
