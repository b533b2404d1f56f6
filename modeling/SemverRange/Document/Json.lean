import SemverRange.Document.Basic
import SemverRange.Numeral

/-!
# Reading JSON

**The reader** (`Json.read?`). The JSON grammar with three more numbers, `NaN`, `Infinity` and
`-Infinity`. A numeral with a fraction or an exponent is a binary number, any other an integer
within the digit limit. A repeated key keeps its first place and takes the last value. Control
characters must be escaped in strings, and a text may not start with a byte-order mark.

**Escapes.** Two escapes that form a surrogate pair give one character; half a pair gives the
replacement character.

Every step consumes a character, so the length of the text bounds the depth of the recursion.
-/

namespace SemverRange.Json

/-- The blanks that may stand between tokens. -/
def isSpace (c : Char) : Bool := c == ' ' || c == '\t' || c == '\n' || c == '\r'

/-- What follows the blanks at the start. -/
def skip (cs : List Char) : List Char := cs.dropWhile isSpace

/-! ## Strings -/

def hexValue? (c : Char) : Option Nat :=
  let n := c.toNat
  if 48 ≤ n ∧ n ≤ 57 then some (n - 48)
  else if 97 ≤ n ∧ n ≤ 102 then some (n - 87)
  else if 65 ≤ n ∧ n ≤ 70 then some (n - 55)
  else none

def hexNumber? (cs : List Char) : Option Nat :=
  cs.foldl (fun acc c => do return 16 * (← acc) + (← hexValue? c)) (some 0)

/-- The character of an escape of one letter. -/
def simpleEscape? : Char → Option Char
  | '\"' => some '\"'
  | '\\' => some '\\'
  | '/' => some '/'
  | 'b' => some '\x08'
  | 'f' => some '\x0c'
  | 'n' => some '\n'
  | 'r' => some '\r'
  | 't' => some '\t'
  | _ => none

def isHighSurrogate (n : Nat) : Bool := 0xD800 ≤ n && n < 0xDC00

def isLowSurrogate (n : Nat) : Bool := 0xDC00 ≤ n && n < 0xE000

/-- The character of a code unit that is not part of a pair. -/
def unitChar (n : Nat) : Char :=
  if isHighSurrogate n || isLowSurrogate n then Char.ofNat 0xFFFD else Char.ofNat n

def pairChar (high low : Nat) : Char := Char.ofNat (0x10000 + (high - 0xD800) * 1024 + (low - 0xDC00))

/-- The rest of a string whose characters so far, in reverse, are `acc`, and what follows it. -/
def readString (acc : List Char) : List Char → Option (String × List Char)
  | [] => none
  | '\"' :: rest => some (String.ofList acc.reverse, rest)
  | '\\' :: 'u' :: a :: b :: c :: d :: '\\' :: 'u' :: e :: f :: g :: h :: rest =>
    match hexNumber? [a, b, c, d] with
    | none => none
    | some n =>
      match hexNumber? [e, f, g, h] with
      | none =>
        if isHighSurrogate n then none
        else readString (unitChar n :: acc) ('\\' :: 'u' :: e :: f :: g :: h :: rest)
      | some m =>
        if isHighSurrogate n && isLowSurrogate m then readString (pairChar n m :: acc) rest
        else readString (unitChar n :: acc) ('\\' :: 'u' :: e :: f :: g :: h :: rest)
  | '\\' :: 'u' :: a :: b :: c :: d :: rest =>
    match hexNumber? [a, b, c, d] with
    | some n => readString (unitChar n :: acc) rest
    | none => none
  | '\\' :: c :: rest =>
    match simpleEscape? c with
    | some e => readString (e :: acc) rest
    | none => none
  | c :: rest => if c.toNat < 32 || c == '\\' then none else readString (c :: acc) rest

/-! ## Numbers -/

/-- The ASCII digits at the start, and the rest. -/
def spanDigits (cs : List Char) : List Char × List Char := cs.span Char.isDigit

/-- The fraction at the start: its digits, or none if no digit follows the point. -/
def readFraction : List Char → Option (List Char) × List Char
  | '.' :: cs =>
    match spanDigits cs with
    | ([], _) => (none, '.' :: cs)
    | (ds, rest) => (some ds, rest)
  | cs => (none, cs)

/-- The exponent at the start, if a letter, an optional sign and a digit are there. -/
def readExponent (cs : List Char) : Option Int × List Char :=
  match cs with
  | e :: rest =>
    if e == 'e' || e == 'E' then
      let (negative, tail) := match rest with
        | '+' :: tail => (false, tail)
        | '-' :: tail => (true, tail)
        | tail => (false, tail)
      match spanDigits tail with
      | ([], _) => (none, cs)
      | (ds, after) =>
        let n : Int := Numeral.value ds
        (some (if negative then -n else n), after)
    else (none, cs)
  | [] => (none, [])

/-- The digits in front of the point: a zero, or digits that start with another one. -/
def readWhole (cs : List Char) : Option (List Char × List Char) :=
  match cs with
  | '0' :: rest => some (['0'], rest)
  | _ =>
    match spanDigits cs with
    | ([], _) => none
    | parts => some parts

/-- The number at the start of a text whose sign has been read. -/
def readNumber (negative : Bool) (cs : List Char) : Option (Scalar × List Char) :=
  match readWhole cs with
  | none => none
  | some (ds, rest) =>
    let (fraction, rest) := readFraction rest
    let (exponent, rest) := readExponent rest
    match fraction, exponent with
    | none, none => do
      let n ← Numeral.read? ds
      return (.int (if negative then -(n : Int) else n), rest)
    | fraction, exponent =>
      let places := fraction.getD []
      some (.float (.ofDecimal negative (Numeral.value (ds ++ places))
        (exponent.getD 0 - places.length)), rest)

/-! ## Values -/

/-- The words that stand for a value. -/
def keywords : List (List Char × Scalar) :=
  [("null".toList, .null), ("true".toList, .bool true), ("false".toList, .bool false),
    ("NaN".toList, .float .nan), ("Infinity".toList, .float (.infinite false)),
    ("-Infinity".toList, .float (.infinite true))]

def readKeyword (cs : List Char) : Option (Scalar × List Char) :=
  keywords.findSome? fun (word, s) =>
    if word.isPrefixOf cs then some (s, cs.drop word.length) else none

/-- The scalar at the start, strings apart. -/
def readScalar (cs : List Char) : Option (Scalar × List Char) :=
  match readKeyword cs with
  | some found => some found
  | none =>
    match cs with
    | '-' :: rest => readNumber true rest
    | _ => readNumber false cs

mutual

/-- The value at the start, after blanks, and what follows it. -/
def readValue : Nat → List Char → Option (Document × List Char)
  | 0, _ => none
  | fuel + 1, cs =>
    match skip cs with
    | '\"' :: rest => (readString [] rest).map fun (s, rest) => (.scalar (.text s), rest)
    | '[' :: rest =>
      match skip rest with
      | ']' :: rest => some (.list [], rest)
      | rest => readItems fuel [] rest
    | '\x7b' :: rest =>
      match skip rest with
      | '\x7d' :: rest => some (.mapping [], rest)
      | rest => readEntries fuel [] rest
    | rest => (readScalar rest).map fun (s, rest) => (.scalar s, rest)

/-- The items of a list up to its end; those before, in reverse, are `acc`. -/
def readItems : Nat → List Document → List Char → Option (Document × List Char)
  | 0, _, _ => none
  | fuel + 1, acc, cs =>
    match readValue fuel cs with
    | none => none
    | some (item, rest) =>
      match skip rest with
      | ',' :: rest => readItems fuel (item :: acc) rest
      | ']' :: rest => some (.list (item :: acc).reverse, rest)
      | _ => none

/-- The entries of a mapping up to its end; those before are `acc`. -/
def readEntries : Nat → List (Scalar × Document) → List Char → Option (Document × List Char)
  | 0, _, _ => none
  | fuel + 1, acc, cs =>
    match skip cs with
    | '\"' :: rest =>
      match readString [] rest with
      | none => none
      | some (key, rest) =>
        match skip rest with
        | ':' :: rest =>
          match readValue fuel rest with
          | none => none
          | some (value, rest) =>
            match skip rest with
            | ',' :: rest => readEntries fuel (Document.put (.text key) value acc) rest
            | '\x7d' :: rest => some (.mapping (Document.put (.text key) value acc), rest)
            | _ => none
        | _ => none
    | _ => none

end

/-- The value that the whole text writes. -/
def read? (cs : List Char) : Option Document :=
  match readValue (cs.length + 1) cs with
  | some (value, rest) => if (skip rest).isEmpty then some value else none
  | none => none

/-- The document that the text writes; any other text is refused. -/
def read (cs : List Char) : Except ReadError Document :=
  match read? cs with
  | some d => .ok d
  | none => .error .refused

end SemverRange.Json
