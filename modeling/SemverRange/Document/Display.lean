import SemverRange.Decimal.Shortest
import SemverRange.Document.Basic
import SemverRange.Numeral
import SemverRange.Text.Quoted

/-!
# Documents on one line

The text that shows a document in a message (`Document.display?`): texts in quotes, lists in
brackets, mappings in braces in the order of their keys' first appearance. It exists unless a
number is too long to be written.

Main statement: `display?_list`, a list shows its items with commas between them.
-/

namespace SemverRange

namespace Scalar

def display? : Scalar → Option String
  | null => some "None"
  | bool b => some (if b then "True" else "False")
  | int n => (Numeral.text? n).map String.ofList
  | float x => some x.text
  | text s => some (Text.quoted s)

end Scalar

namespace Document

mutual

def display? : Document → Option String
  | scalar s => s.display?
  | list items => (displayItems? items).map fun ts => "[" ++ ", ".intercalate ts ++ "]"
  | mapping entries =>
    (displayEntries? entries).map fun ts => "\x7b" ++ ", ".intercalate ts ++ "\x7d"

def displayItems? : List Document → Option (List String)
  | [] => some []
  | d :: ds => do
    let t ← display? d
    let ts ← displayItems? ds
    return t :: ts

def displayEntries? : List (Scalar × Document) → Option (List String)
  | [] => some []
  | (k, d) :: rest => do
    let key ← k.display?
    let t ← display? d
    let ts ← displayEntries? rest
    return (key ++ ": " ++ t) :: ts

end

theorem display?_list (items : List Document) :
    display? (list items) =
      (items.mapM display?).map fun ts => "[" ++ ", ".intercalate ts ++ "]" := by
  have h : ∀ ds, displayItems? ds = ds.mapM display? := by
    intro ds
    induction ds with
    | nil => simp [displayItems?]
    | cons d ds ih => simp [displayItems?, ih]
  simp [display?, h]

end Document

end SemverRange
