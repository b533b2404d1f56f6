/-!
# What can be wrong with a requirement

A requirement that cannot be built is malformed, or one of its numbers is not a numeral of
acceptable length. Only the first kind names a text: the whole requirement for an error of
syntax, one rendered version for an error in that version.
-/

namespace SemverRange

/-- Why a requirement cannot be built. -/
inductive RequirementError where
  /-- The text is no requirement, or the version it shows is not acceptable in one. -/
  | malformed (text : String)
  /-- A component of a version is not an integer of acceptable length. -/
  | unreadableNumber
  deriving DecidableEq

namespace RequirementError

def message : RequirementError → String
  | malformed text => "Invalid requirement format: '" ++ text ++ "'"
  | unreadableNumber => "Unreadable number"

end RequirementError

end SemverRange
