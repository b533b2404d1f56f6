import SemverRange.Numeral
import SemverRange.Version.Written

/-!
# Versions

**The value** (`Version`). Three numbers, the pre-release identifiers and the build identifiers.
The numbers are integers rather than naturals, since a bound computed from a signed component may
lie below zero; a version that was read from text has none below zero.

**Identifiers.** An identifier made of digits alone is *numeric* and counts by its value; any
other is a word over ASCII. `Version.ofParts?` refuses identifiers that are neither.

**Text** (`Version.text?`). The canonical text `major.minor.patch-pre+build`. It exists unless a
number is too long to be written.
-/

namespace SemverRange

structure Triple where
  major : Int
  minor : Int
  patch : Int
  deriving DecidableEq

/-- A version: its triple, its pre-release identifiers and its build identifiers. -/
structure Version extends Triple where
  prerelease : List String
  build : List String
  deriving DecidableEq

/-! ## Identifiers -/

namespace Identifier

/-- Made of digits alone. -/
def isNumeric (id : String) : Bool := Numeral.isNumeral id.toList

/-- A numeral within the digit limit, or a non-empty ASCII word. -/
def isReadable (id : String) : Bool :=
  if isNumeric id then id.toList.length ≤ Numeral.limit
  else !id.toList.isEmpty && id.toList.all (·.toNat < 128)

/-- A numeric identifier that starts with a zero and has more digits. -/
def hasLeadingZero (id : String) : Bool :=
  isNumeric id && id.toList.head? == some '0' && id.toList.length != 1

end Identifier

namespace Version

/-- The release `t`: no pre-release, no build. -/
def release (t : Triple) : Version := ⟨t, [], []⟩

/-- The version has no pre-release identifiers. -/
def isRelease (v : Version) : Bool := v.prerelease.isEmpty

/-- The version of the given parts, if all identifiers are readable and no numeric pre-release
identifier starts with a needless zero. -/
def ofParts? (t : Triple) (prerelease build : List String) : Option Version :=
  if prerelease.all (fun id => Identifier.isReadable id && !Identifier.hasLeadingZero id) &&
      build.all Identifier.isReadable then
    some ⟨t, prerelease, build⟩
  else none

/-! ## Text -/

/-- The parts of the canonical text, if all three numbers can be written. -/
def written? (v : Version) : Option Written := do
  let major ← Numeral.text? v.major
  let minor ← Numeral.text? v.minor
  let patch ← Numeral.text? v.patch
  return ⟨[major, minor, patch], v.prerelease.map (·.toList), v.build.map (·.toList)⟩

/-- The canonical text, if all three numbers can be written. -/
def text? (v : Version) : Option String := v.written?.map fun w => String.ofList w.text

end Version

end SemverRange
