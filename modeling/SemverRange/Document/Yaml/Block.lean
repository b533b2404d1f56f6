import SemverRange.Document.Yaml.Flow

/-!
# Block structure of YAML

**Lines** (`Line`). Blank lines and comments are dropped; each line that remains is an indentation
and a body, and remembers what was dropped before it. **Nodes** (`readNode`). The body of a line
decides what stands there: items of a list start with a hyphen and a blank, entries of a mapping
with a key and a colon; anything else is a scalar or a flow collection. Items and entries of one
collection share their indentation, what belongs to them is indented more, except that a list that
is the value of an entry may stand at the indentation of its key. A plain scalar goes on with the
lines that are indented more than the collection around it.

**Texts** (`Yaml.read`). One document, possibly after `---` and before `...`. A byte-order mark at
the start is skipped. A character that is not printable, a tab outside of quotes, a second
document, a key that is no scalar, a tag before anything but a value on the same line, other tags
than those of `Tag`, anchors and block scalars are refused.

Each step of a reader uses up a character, so the number of characters bounds the recursion.
-/

namespace SemverRange.Yaml

/-! ## Lines -/

/-- A line with content. -/
structure Line where
  indent : Nat
  body : List Char
  blanksBefore : Nat
  commentBefore : Bool
  deriving DecidableEq

/-- The characters that may occur in a text. -/
def isAllowed (c : Char) : Bool :=
  let n := c.toNat
  n == 9 || n == 10 || n == 13 || (0x20 ≤ n && n ≤ 0x7E) || n == 0x85 ||
    (0xA0 ≤ n && n ≤ 0xFFFD) || 0x10000 ≤ n

def isLineEnd (c : Char) : Bool := c == '\n' || c == '\x85' || c == '\u2028' || c == '\u2029'

/-- The lines with content among raw lines. -/
def contentLines (blanks : Nat) (comment : Bool) : List (List Char) → List Line
  | [] => []
  | raw :: rest =>
    let body := skipSpaces raw
    match body with
    | [] => contentLines (blanks + 1) comment rest
    | '#' :: _ => contentLines blanks true rest
    | _ => ⟨raw.length - body.length, body, blanks, comment⟩ :: contentLines 0 false rest

/-- The raw line starts with the three characters `mark`, and a blank or nothing follows. -/
def isMarker (mark : Char) (raw : List Char) : Bool :=
  [mark, mark, mark].isPrefixOf raw && (raw.drop 3).head?.all isBreak

/-- What follows at the end of a line is nothing, or a comment. -/
def atEnd (cs : List Char) : Bool :=
  match skipSpaces cs with
  | [] => true
  | c :: _ => c == '#'

/-! ## Scalars and keys -/

/-- The body starts an item of a list. -/
def isItem : List Char → Bool
  | '-' :: rest => rest.head?.all isBreak
  | _ => false

/-- The key at the start of a body and what follows its colon, if the body starts an entry. -/
def readKey? (body : List Char) : Option (Value × List Char) :=
  match readQuoted? body with
  | some none => none
  | some (some (text, rest)) =>
    match skipSpaces rest with
    | ':' :: value =>
      if startsValue false (':' :: value) then some (quotedScalar none text, value) else none
    | _ => none
  | none =>
    if startsValue false body then some (.ok .null, body.drop 1)
    else if startsPlain false body then
      let (text, rest) := readPlain false body
      match rest with
      | ':' :: value => some (plainScalar none text, value)
      | _ => none
    else none

/-- A plain scalar that has begun with `text` goes on with the lines indented by at least `floor`;
none if it runs into a colon or a tab. -/
def continuePlain (floor : Nat) (text : List Char) : List Line → Option (List Char × List Line)
  | [] => some (text, [])
  | l :: rest =>
    if l.indent < floor || l.commentBefore then some (text, l :: rest)
    else
      let (more, tail) := readPlain false l.body
      let gap := if l.blanksBefore = 0 then [' '] else List.replicate l.blanksBefore '\n'
      match tail with
      | [] => continuePlain floor (text ++ gap ++ more) rest
      | c :: _ => if c == '#' then some (text ++ gap ++ more, rest) else none

/-- The scalar or flow collection that `cs`, the rest of a line, starts. -/
def readInline (floor : Nat) (cs : List Char) (rest : List Line) : Option (Node × List Line) :=
  let (tag, body) := splitTag cs
  match readQuoted? body, readFlow? body with
  | some none, _ => none
  | some (some (text, tail)), _ =>
    if atEnd tail then some (.scalar (quotedScalar tag text), rest) else none
  | none, some none => none
  | none, some (some (n, tail)) => if tag.isNone && atEnd tail then some (n, rest) else none
  | none, none =>
    if isItem body || !startsPlain false body then none
    else
      let (text, tail) := readPlain false body
      match tail with
      | [] => do
        let (text, rest) ← continuePlain floor text rest
        return (.scalar (plainScalar tag text), rest)
      | c :: _ => if c == '#' then some (.scalar (plainScalar tag text), rest) else none

/-! ## Nodes -/

mutual

/-- The node that starts with the first line, and the lines after it. What belongs to it is
indented by at least `floor`. -/
def readNode : Nat → Nat → List Line → Option (Node × List Line)
  | 0, _, _ => none
  | _ + 1, _, [] => none
  | fuel + 1, floor, l :: rest =>
    if isItem l.body then readItems fuel l.indent [] (l :: rest)
    else if (readKey? l.body).isSome then readEntries fuel l.indent [] (l :: rest)
    else readInline floor l.body rest

/-- The items of a list indented by `indent`; those before, in reverse, are `acc`. -/
def readItems : Nat → Nat → List Node → List Line → Option (Node × List Line)
  | 0, _, _, _ => none
  | _ + 1, _, acc, [] => some (.list acc.reverse, [])
  | fuel + 1, indent, acc, l :: rest =>
    if indent < l.indent then none
    else if l.indent < indent || !isItem l.body then some (.list acc.reverse, l :: rest)
    else
      let content := skipSpaces (l.body.drop 1)
      if atEnd content then
        match rest with
        | next :: _ =>
          if indent < next.indent then
            match readNode fuel (indent + 1) rest with
            | some (item, rest) => readItems fuel indent (item :: acc) rest
            | none => none
          else readItems fuel indent (.null :: acc) rest
        | [] => some (.list (.null :: acc).reverse, [])
      else
        let column := l.indent + (l.body.length - content.length)
        match readNode fuel (indent + 1) (⟨column, content, 0, false⟩ :: rest) with
        | some (item, rest) => readItems fuel indent (item :: acc) rest
        | none => none

/-- The entries of a mapping indented by `indent`; those before, in reverse, are `acc`. -/
def readEntries : Nat → Nat → List (Value × Node) → List Line → Option (Node × List Line)
  | 0, _, _, _ => none
  | _ + 1, _, acc, [] => some (.mapping acc.reverse, [])
  | fuel + 1, indent, acc, l :: rest =>
    if indent < l.indent then none
    else if l.indent < indent then some (.mapping acc.reverse, l :: rest)
    else
      match readKey? l.body with
      | none => none
      | some (key, value) =>
        let found :=
          if !atEnd value then readInline (indent + 1) (skipSpaces value) rest
          else
            match rest with
            | [] => some (.null, [])
            | next :: _ =>
              if indent < next.indent then readNode fuel (indent + 1) rest
              else if next.indent = indent && isItem next.body then readItems fuel indent [] rest
              else some (.null, rest)
        match found with
        | some (n, rest) => readEntries fuel indent ((key, n) :: acc) rest
        | none => none

end

/-! ## Texts -/

/-- The node of lines that hold one node, or nothing. -/
def ofNodes (fuel : Nat) (lines : List Line) : Option Node :=
  match lines with
  | [] => some .null
  | lines =>
    match readNode fuel 0 lines with
    | some (n, []) => some n
    | _ => none

/-- The node of the raw lines after a marker at the start; no collection in block structure may
begin on the line of the marker itself. -/
def afterMarker (fuel : Nat) (first : List Char) (rest : List (List Char)) : Option Node :=
  if atEnd first then ofNodes fuel (contentLines 0 false rest)
  else
    match readInline 0 (skipSpaces first) (contentLines 0 false rest) with
    | some (n, []) => some n
    | _ => none

/-- The raw lines before the end marker; none if anything but comments follows it. -/
def beforeEnd? (raws : List (List Char)) : Option (List (List Char)) :=
  match raws.dropWhile fun raw => !isMarker '.' raw with
  | [] => some raws
  | mark :: rest =>
    if atEnd (mark.drop 3) && (contentLines 0 false rest).isEmpty then
      some (raws.takeWhile fun raw => !isMarker '.' raw)
    else none

def compose? (cs : List Char) : Option Node :=
  let cs := match cs with
    | '\ufeff' :: rest => rest
    | cs => cs
  if !cs.all isAllowed then none
  else
    match beforeEnd? (cs.splitOnP isLineEnd) with
    | none => none
    | some raws =>
      let fuel := 2 * cs.length + 2
      let skipped := raws.takeWhile fun raw => atEnd raw
      match raws.drop skipped.length with
      | [] => if raws.length < (cs.splitOnP isLineEnd).length then none else some .null
      | first :: rest =>
        if isMarker '-' first then
          if rest.any (isMarker '-') then none else afterMarker fuel (first.drop 3) rest
        else if (first :: rest).any (isMarker '-') then none
        else ofNodes fuel (contentLines 0 false (first :: rest))

def read (cs : List Char) : Except ReadError Document :=
  match compose? cs with
  | some n => n.read
  | none => .error .refused

end SemverRange.Yaml
