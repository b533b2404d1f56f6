/-!
# Decimal digits

**Digits** (`isDigit`, `digitValue`). Every script writes its ten decimal digits as ten
consecutive characters, so the class is given by the zeros alone (`zeros`): `c` is a digit when
some zero lies at most nine places before it, and its value is that distance.

Main statement: `digitValue_lt_ten`.
-/

namespace SemverRange.Text

/-- The code points of the zeros, one for each run of ten decimal digits. -/
def zeros : List Nat :=
  [0x30, 0x660, 0x6F0, 0x7C0, 0x966, 0x9E6, 0xA66, 0xAE6, 0xB66, 0xBE6, 0xC66, 0xCE6, 0xD66,
    0xDE6, 0xE50, 0xED0, 0xF20, 0x1040, 0x1090, 0x17E0, 0x1810, 0x1946, 0x19D0, 0x1A80, 0x1A90,
    0x1B50, 0x1BB0, 0x1C40, 0x1C50, 0xA620, 0xA8D0, 0xA900, 0xA9D0, 0xA9F0, 0xAA50, 0xABF0,
    0xFF10, 0x104A0, 0x10D30, 0x11066, 0x110F0, 0x11136, 0x111D0, 0x112F0, 0x11450, 0x114D0,
    0x11650, 0x116C0, 0x11730, 0x118E0, 0x11950, 0x11C50, 0x11D50, 0x11DA0, 0x16A60, 0x16AC0,
    0x16B50, 0x1D7CE, 0x1D7D8, 0x1D7E2, 0x1D7EC, 0x1D7F6, 0x1E140, 0x1E2F0, 0x1E950, 0x1FBF0]

/-- The value of a decimal digit of any script. -/
def digitValue? (c : Char) : Option Nat :=
  (zeros.find? fun z => z ≤ c.toNat && c.toNat < z + 10).map (c.toNat - ·)

/-- The characters that write a decimal digit. -/
def isDigit (c : Char) : Bool := (digitValue? c).isSome

/-- The value of the digit `c`, and zero for any other character. -/
def digitValue (c : Char) : Nat := (digitValue? c).getD 0

theorem digitValue_lt_ten (c : Char) : digitValue c < 10 := by
  unfold digitValue digitValue?
  cases h : zeros.find? fun z => z ≤ c.toNat && c.toNat < z + 10 with
  | none => simp
  | some z =>
    have hz := List.find?_some h
    simp only [Bool.and_eq_true, decide_eq_true_eq] at hz
    simp only [Option.map_some, Option.getD_some]
    omega

/-- The ASCII digits are digits of their usual value. -/
theorem digitValue?_of_ascii {c : Char} (h : 48 ≤ c.toNat ∧ c.toNat ≤ 57) :
    digitValue? c = some (c.toNat - 48) := by
  have : (48 ≤ c.toNat && c.toNat < 48 + 10) = true := by
    simp only [Bool.and_eq_true, decide_eq_true_eq]; omega
  simp [digitValue?, zeros, this]

end SemverRange.Text
