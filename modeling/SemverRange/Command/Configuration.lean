import SemverRange.Command.FileTree
import SemverRange.Document.Yaml.Block
import SemverRange.Log
import SemverRange.Text.Lines
import SemverRange.Text.Upper

/-!
# The configuration file

**Which file** (`Configuration.path?`). The one that is asked for, or else the first of three usual
places that holds a file. **Reading** (`Readers`). The end of the name decides between a reader of
JSON and one of YAML. **Which part** (`entries`). The mapping under the name of the program if there
is such a key, else the whole mapping; what is no mapping counts as empty.

A file that is missing, that is no text, or that its reader refuses is reported and counts as empty
(`load`). A reader that fails leaves no configuration at all, not even an empty one.
-/

namespace SemverRange.Configuration

/-- The part of the program that reports on the configuration. -/
def source : String := "configuration"

/-- The key of the part of a configuration that is for this program. -/
def sectionKey : String := "npmrange"

/-- Where a configuration is looked for, in order. -/
def usualPaths (home : String) : List String :=
  ["npmrange.yml", "npmrange.yaml",
    String.ofList (home.toList.reverse.dropWhile (· == '/')).reverse ++
      "/.config/npmrange/npmrange.yml"]

/-- The path of the configuration; an empty request is none. -/
def path? (files : FileTree) (home : String) (requested : Option String) : Option String :=
  match requested.filter (!·.isEmpty) with
  | some path => some path
  | none => (usualPaths home).find? files.hasFile

def isJson (path : String) : Bool := ".json".toList.isSuffixOf (Text.lowerAscii path).toList

/-- The readers of the two kinds of files. -/
structure Readers where
  json : List Char → Except ReadError Document
  yaml : List Char → Except ReadError Document

/-- The readers of this library, which set no limit to nesting. -/
def Readers.standard : Readers := ⟨Json.read, Yaml.read⟩

/-- The document in a file of the given path and text. -/
def Readers.read (readers : Readers) (path : String) (cs : List Char) : Except ReadError Document :=
  if isJson path then readers.json cs else readers.yaml cs

/-- The entries for this program in a document. -/
def entries : Document → List (Scalar × Document)
  | .mapping all =>
    match Document.lookup sectionKey all with
    | none => all
    | some (.mapping inner) => inner
    | some _ => []
  | _ => []

def missing (path : String) : Record :=
  .plain .warning source ("Config file not found: " ++ path)

def unreadable (path : String) : Record :=
  ⟨.error, source, "Failed to load config " ++ path ++ ":", " the content is malformed"⟩

/-- The configuration for this program, and the reports made on the way; none if the reader of the
file fails. -/
def load (readers : Readers) (files : FileTree) (home : String) (requested : Option String) :
    Option (List (Scalar × Document) × List Record) :=
  match path? files home requested with
  | none => some ([], [])
  | some path =>
    match files.lookup path with
    | .file bytes =>
      match (Text.decode? bytes).map (readers.read path) with
      | none => some ([], [unreadable path])
      | some (.ok d) => some (entries d, [])
      | some (.error .refused) => some ([], [unreadable path])
      | some (.error .failed) => none
    | _ => some ([], [missing path])

end SemverRange.Configuration
