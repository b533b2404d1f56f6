import SemverRange.Error
import SemverRange.Text.Blank

/-!
# Comparators

The seven operators that may stand in front of a partial version (`Comparator`), the symbols that
write them and the tags that name them in the text of a clause.

**Reading** (`Comparator.read`). An absent or blank symbol is no comparator; blanks around a
symbol do not matter; any other text is malformed.

Main statement: `ofSymbol?_symbol`, each comparator is read from its own symbol.
-/

namespace SemverRange

/-- An operator that compares versions with a partial version. -/
inductive Comparator where
  | eq
  | gt
  | lt
  | ge
  | le
  | tilde
  | caret
  deriving DecidableEq

namespace Comparator

def all : List Comparator := [eq, gt, lt, ge, le, tilde, caret]

def symbol : Comparator → List Char
  | eq => ['=']
  | gt => ['>']
  | lt => ['<']
  | ge => ['>', '=']
  | le => ['<', '=']
  | tilde => ['~']
  | caret => ['^']

/-- The tag that names a comparator in the text of a clause. -/
def tag : Comparator → String
  | eq => "EQ"
  | gt => "GT"
  | lt => "LT"
  | ge => "GTEQ"
  | le => "LTEQ"
  | tilde => "TILDE"
  | caret => "CARET"

/-- The comparator that a symbol writes. -/
def ofSymbol? (cs : List Char) : Option Comparator := all.find? (·.symbol == cs)

theorem ofSymbol?_symbol (c : Comparator) : ofSymbol? c.symbol = some c := by
  cases c <;> rfl

/-- The comparator of a clause, if it has one. -/
def read : Option String → Except RequirementError (Option Comparator)
  | none => .ok none
  | some s =>
    let cs := Text.trim s.toList
    if cs.isEmpty then .ok none
    else
      match ofSymbol? cs with
      | some c => .ok (some c)
      | none => .error (.malformed s)

end Comparator

end SemverRange
