import SemverRange.Document.Yaml.Scalar

/-!
# Nodes of YAML

A text is read in two stages. The first finds its structure (`Node`): lists, mappings, and scalars
that still carry what their value will be. The second gives out the values (`Node.read`), so a text
whose structure is wrong is refused whatever its scalars are.

**Tags** (`Tag`). A tag in front of a scalar says what kind of value it has: a text, null, or a
truth value. Behind the last of these any word but the six for a truth value makes the reader fail.
Without a tag a quoted scalar is a text, and a plain one has the value of its form.

**Order** (`Node.error?`). The values are given out level by level, and on each level in the order
of the text. The first scalar without a value decides what becomes of the document.
-/

namespace SemverRange.Yaml

/-- What a scalar stands for, or why it stands for nothing. -/
abbrev Value := Except ReadError Scalar

/-! ## Tags -/

/-- The tags that are read. -/
inductive Tag where
  | text
  | null
  | truth
  deriving DecidableEq

def Tag.name : Tag → String
  | text => "!!str"
  | null => "!!null"
  | truth => "!!bool"

/-- The value of a scalar behind the tag. The words for a truth value may have any case. -/
def Tag.value (tag : Tag) (cs : List Char) : Value :=
  match tag with
  | text => .ok (.text (String.ofList cs))
  | null => .ok .null
  | truth =>
    match truthWords.lookup (cs.map Char.toLower) with
    | some b => .ok (.bool b)
    | none => .error .failed

def quotedScalar (tag : Option Tag) (cs : List Char) : Value :=
  (tag.getD .text).value cs

def plainScalar (tag : Option Tag) (cs : List Char) : Value :=
  match tag, plainValue cs with
  | some tag, _ => tag.value cs
  | none, some s => .ok s
  | none, none => .error .refused

/-! ## Nodes -/

/-- A document whose scalars have yet to be given their values. -/
inductive Node where
  | scalar (value : Value)
  | list (items : List Node)
  | mapping (entries : List (Value × Node))

instance : Inhabited Node := ⟨.scalar (.ok .null)⟩

namespace Node

/-- The node of what is left out. -/
def null : Node := .scalar (.ok .null)

/-- The error of a scalar on a level. -/
def scalarErrors (level : Nat) : Value → List (Nat × ReadError)
  | .ok _ => []
  | .error e => [(level, e)]

mutual

/-- The errors of the scalars in a node on a level, each with its own level. -/
def errors (level : Nat) : Node → List (Nat × ReadError)
  | scalar value => scalarErrors level value
  | list items => itemErrors (level + 1) items
  | mapping entries => entryErrors (level + 1) entries

def itemErrors (level : Nat) : List Node → List (Nat × ReadError)
  | [] => []
  | n :: ns => errors level n ++ itemErrors level ns

def entryErrors (level : Nat) : List (Value × Node) → List (Nat × ReadError)
  | [] => []
  | (key, n) :: rest => scalarErrors level key ++ (errors level n ++ entryErrors level rest)

end

/-- Of an error and those behind it the one that is met first. -/
def earlier (e : Nat × ReadError) : Option (Nat × ReadError) → Option (Nat × ReadError)
  | none => some e
  | some found => if e.1 ≤ found.1 then some e else some found

/-- The error that is met first. -/
def error? (n : Node) : Option ReadError := ((n.errors 0).foldr earlier none).map (·.2)

/-- The value of a scalar that has one, and otherwise null. -/
def valueOrNull : Value → Scalar
  | .ok s => s
  | .error _ => .null

mutual

/-- The document of a node whose scalars have values. -/
def document : Node → Document
  | scalar value => .scalar (valueOrNull value)
  | list items => .list (itemDocuments items)
  | mapping entries => .mapping (entryDocuments [] entries)

def itemDocuments : List Node → List Document
  | [] => []
  | n :: ns => document n :: itemDocuments ns

/-- The entries of a mapping, put behind those before. -/
def entryDocuments (acc : List (Scalar × Document)) :
    List (Value × Node) → List (Scalar × Document)
  | [] => acc
  | (key, n) :: rest => entryDocuments (Document.put (valueOrNull key) (document n) acc) rest

end

/-- The document of a node, if all its scalars have values. -/
def read (n : Node) : Except ReadError Document :=
  match n.error? with
  | some e => .error e
  | none => .ok n.document

end Node

end SemverRange.Yaml
