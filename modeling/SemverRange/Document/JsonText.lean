import SemverRange.Decimal.Shortest
import SemverRange.Document.Json

/-!
# Writing JSON

The text of a document as JSON in ASCII, with two spaces for each level and every item and entry
on a line of its own (`Json.text`). Quotes, backslashes and everything outside the printable ASCII
characters are escaped, by a letter where there is one and else by code units of sixteen bits.
-/

namespace SemverRange.Json

def hexDigit (n : Nat) : Char := Nat.digitChar (n % 16)

def unitEscape (n : Nat) : List Char :=
  ['\\', 'u', hexDigit (n / 4096), hexDigit (n / 256), hexDigit (n / 16), hexDigit n]

/-- The form of a character in a string. -/
def charText (c : Char) : List Char :=
  let n := c.toNat
  if c == '\"' || c == '\\' then ['\\', c]
  else if 32 ≤ n && n ≤ 126 then [c]
  else if c == '\n' then ['\\', 'n']
  else if c == '\r' then ['\\', 'r']
  else if c == '\t' then ['\\', 't']
  else if c == '\x08' then ['\\', 'b']
  else if c == '\x0c' then ['\\', 'f']
  else if n < 0x10000 then unitEscape n
  else unitEscape (0xD800 + (n - 0x10000) / 1024) ++ unitEscape (0xDC00 + (n - 0x10000) % 1024)

def stringText (s : String) : String :=
  String.ofList ('\"' :: s.toList.flatMap charText ++ ['\"'])

def scalarText : Scalar → String
  | .null => "null"
  | .bool b => if b then "true" else "false"
  | .int n => String.ofList (Numeral.digits n)
  | .float .nan => "NaN"
  | .float (.infinite negative) => if negative then "-Infinity" else "Infinity"
  | .float x => x.text
  | .text s => stringText s

def keyText : Scalar → String
  | .text s => stringText s
  | s => stringText (scalarText s)

/-- The parts of a collection, each on a line of its own, between two brackets. -/
def bracketed (opening closing indent : String) (parts : List String) : String :=
  if parts.isEmpty then opening ++ closing
  else
    opening ++ "\n" ++ (",\n").intercalate (parts.map fun p => indent ++ "  " ++ p) ++ "\n" ++
      indent ++ closing

mutual

/-- The text of a document whose first line is already indented by `indent`. -/
def indented (indent : String) : Document → String
  | .scalar s => scalarText s
  | .list items => bracketed "[" "]" indent (itemTexts (indent ++ "  ") items)
  | .mapping entries => bracketed "\x7b" "\x7d" indent (entryTexts (indent ++ "  ") entries)

def itemTexts (indent : String) : List Document → List String
  | [] => []
  | d :: ds => indented indent d :: itemTexts indent ds

def entryTexts (indent : String) : List (Scalar × Document) → List String
  | [] => []
  | (k, d) :: rest => (keyText k ++ ": " ++ indented indent d) :: entryTexts indent rest

end

def text (d : Document) : String := indented "" d

end SemverRange.Json
