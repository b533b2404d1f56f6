import SemverRange.Version.Basic

/-!
# Candidate versions

A candidate is a version given as text, to be checked against a requirement. Around a complete
version it may have blanks, then at most one `=` followed by blanks, then at most one `v`.

**Reading** (`Version.parse`). The text that remains has exactly three numerals in its core, none
with a needless leading zero, and acceptable identifiers. Whatever fails, the error carries the
candidate as it was given.
-/

namespace SemverRange

/-- The text is not a version. -/
structure InvalidVersion where
  text : String
  deriving DecidableEq

def InvalidVersion.message (e : InvalidVersion) : String := "Invalid version: '" ++ e.text ++ "'"

namespace Version

open Written (dropMark)

/-- What is left of a candidate without blanks, `=` and `v`. -/
def undecorated (cs : List Char) : List Char :=
  match Text.trim cs with
  | '=' :: rest => dropMark 'v' (Text.trimStart rest)
  | rest => dropMark 'v' rest

/-- A number of the core: a numeral, with no zero in front of further digits. -/
def component? (cs : List Char) : Option Int :=
  if cs.head? == some '0' && cs.length != 1 then none else (Numeral.read? cs).map Int.ofNat

/-- The version with the given pieces, if they are those of a complete version. -/
def ofWritten? (w : Written) : Option Version :=
  match w.core with
  | [major, minor, patch] => do
    let t : Triple := ⟨← component? major, ← component? minor, ← component? patch⟩
    ofParts? t (w.prerelease.map String.ofList) (w.build.map String.ofList)
  | _ => none

/-- The version that `cs` writes without any decoration. -/
def readCore? (cs : List Char) : Option Version := (Written.read? cs).bind ofWritten?

/-- The version that a candidate stands for. -/
def parse (s : String) : Except InvalidVersion Version :=
  match readCore? (undecorated s.toList) with
  | some v => .ok v
  | none => .error ⟨s⟩

end Version

end SemverRange
