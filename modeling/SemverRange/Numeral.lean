import SemverRange.Text.Blank
import SemverRange.Text.Digit

/-!
# Numerals of bounded length

**Reading** (`read?`). A numeral is a non-empty run of decimal digits of any script, at most
`limit` of them; leading zeros count. **Writing** (`text?`) uses ASCII digits and refuses an
integer of more than `limit` digits, so a number above the limit can be computed with but neither
read nor written.

**Signed components** (`readSigned?`). A version component that is handed over as a text of its
own may be surrounded by space, carry one sign and separate its digits by single underscores.

Main statements: `read?_eq_some_iff` and `value_append`.
-/

namespace SemverRange.Numeral

open SemverRange.Text

/-- The greatest number of digits that a numeral may have. -/
def limit : Nat := 4300

/-- A non-empty run of decimal digits. -/
def isNumeral (cs : List Char) : Bool := !cs.isEmpty && cs.all isDigit

/-- The number written by the digits `cs`, the most significant first. -/
def value (cs : List Char) : Nat := cs.foldl (fun n c => 10 * n + digitValue c) 0

/-- The number that `cs` writes, if `cs` is a numeral within the limit. -/
def read? (cs : List Char) : Option Nat :=
  if isNumeral cs && cs.length ≤ limit then some (value cs) else none

theorem read?_eq_some_iff {cs : List Char} {n : Nat} :
    read? cs = some n ↔ isNumeral cs = true ∧ cs.length ≤ limit ∧ value cs = n := by
  simp [read?, and_assoc]

theorem value_append (cs : List Char) (c : Char) :
    value (cs ++ [c]) = 10 * value cs + digitValue c := by
  simp [value]

/-! ## Writing -/

/-- The decimal text of `n`, whatever its size. -/
def digits (n : Int) : List Char :=
  (if n < 0 then ['-'] else []) ++ Nat.toDigits 10 n.natAbs

/-- The decimal text of `n`, unless it has more than `limit` digits. -/
def text? (n : Int) : Option (List Char) :=
  if (Nat.toDigits 10 n.natAbs).length ≤ limit then some (digits n) else none

/-! ## Signed components -/

/-- The space skipped around a signed numeral: blanks other than the information separators. -/
def isSkipped (c : Char) : Bool := isBlank c && !(28 ≤ c.toNat && c.toNat ≤ 31)

/-- The number written by digits in groups with a single `_` between them. -/
def readGrouped? (cs : List Char) : Option Nat :=
  if (cs.splitOn '_').all isNumeral then read? (cs.splitOn '_').flatten else none

/-- The integer written by a numeral with optional space around it, sign and digit groups. -/
def readSigned? (cs : List Char) : Option Int :=
  match stripBy isSkipped cs with
  | '-' :: ds => (readGrouped? ds).map fun n => -(n : Int)
  | '+' :: ds => (readGrouped? ds).map Int.ofNat
  | ds => (readGrouped? ds).map Int.ofNat

end SemverRange.Numeral
