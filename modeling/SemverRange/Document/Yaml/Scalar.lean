import SemverRange.Document.Basic
import SemverRange.Numeral

/-!
# Plain scalars of YAML

What a scalar without quotes stands for (`Yaml.plainValue`), by the rules of version 1.1: a truth
value or null by one of a few words, a binary number with a decimal point, an integer in base two,
eight, ten, sixteen or sixty, and otherwise the text itself. Digits may be separated by
underscores.

A scalar may look like an integer and still have no value: a base without digits, or more decimal
digits than a numeral may have. The indicator `=` and the merge key are not supported. All these
are refused (`none`).
-/

namespace SemverRange.Yaml

def truthWords : List (List Char × Bool) :=
  (["yes", "Yes", "YES", "true", "True", "TRUE", "on", "On", "ON"].map fun w => (w.toList, true)) ++
  (["no", "No", "NO", "false", "False", "FALSE", "off", "Off", "OFF"].map fun w =>
    (w.toList, false))

def nullWords : List (List Char) := ["", "~", "null", "Null", "NULL"].map (·.toList)

/-! ## Digits in a base -/

/-- The value of a digit in bases up to sixteen. -/
def digitIn? (base : Nat) (c : Char) : Option Nat :=
  let n := c.toNat
  let value :=
    if 48 ≤ n ∧ n ≤ 57 then some (n - 48)
    else if 97 ≤ n ∧ n ≤ 102 then some (n - 87)
    else if 65 ≤ n ∧ n ≤ 70 then some (n - 55)
    else none
  value.filter (· < base)

/-- The character is a digit of the base or an underscore. -/
def isDigitOrGap (base : Nat) (c : Char) : Bool := c == '_' || (digitIn? base c).isSome

/-- The digits without the underscores. -/
def ungrouped (cs : List Char) : List Char := cs.filter (· != '_')

/-- The number that the digits write in the base; there has to be a digit. -/
def numberIn? (base : Nat) (cs : List Char) : Option Nat :=
  match ungrouped cs with
  | [] => none
  | ds => some (ds.foldl (fun n c => base * n + (digitIn? base c).getD 0) 0)

/-- A decimal numeral within the digit limit. -/
def decimal? (cs : List Char) : Option Nat := Numeral.read? (ungrouped cs)

/-! ## Numbers in base sixty -/

/-- One or two digits below sixty. -/
def isSixtieth : List Char → Bool
  | [d] => (digitIn? 10 d).isSome
  | [t, d] => (digitIn? 6 t).isSome && (digitIn? 10 d).isSome
  | _ => false

/-- The parts of a number in base sixty; the first is any decimal numeral. -/
def sixtieths? (cs : List Char) : Option (List (List Char)) :=
  match cs.splitOn ':' with
  | first :: second :: rest =>
    if (second :: rest).all isSixtieth && first.all (isDigitOrGap 10) then
      some (first :: second :: rest)
    else none
  | _ => none

/-- The number whose parts in base sixty are given, the most significant first. -/
def sixtyValue? (parts : List (List Char)) : Option Nat :=
  parts.foldl (fun acc part => do return 60 * (← acc) + (← decimal? part)) (some 0)

/-! ## Integers -/

/-- What looks like an integer, if it does: the integer, or none if it has no value. -/
def unsigned? (cs : List Char) : Option (Option Nat) :=
  match cs with
  | '0' :: 'b' :: ds =>
    if !ds.isEmpty && ds.all (isDigitOrGap 2) then some (numberIn? 2 ds) else none
  | '0' :: 'x' :: ds =>
    if !ds.isEmpty && ds.all (isDigitOrGap 16) then some (numberIn? 16 ds) else none
  | '0' :: ds => if ds.all (isDigitOrGap 8) then some (numberIn? 8 ('0' :: ds)) else none
  | c :: ds =>
    if (digitIn? 10 c).isNone then none
    else if ds.all (isDigitOrGap 10) then some (decimal? (c :: ds))
    else (sixtieths? (c :: ds)).map sixtyValue?
  | [] => none

/-- A text without its sign, and whether the sign is a minus. -/
def splitSign : List Char → Bool × List Char
  | '-' :: cs => (true, cs)
  | '+' :: cs => (false, cs)
  | cs => (false, cs)

/-- What looks like an integer with an optional sign, if it does. -/
def integer? (cs : List Char) : Option (Option Scalar) :=
  let (negative, body) := splitSign cs
  (unsigned? body).map fun value => value.map fun n => .int (if negative then -(n : Int) else n)

/-! ## Binary numbers -/

/-- The exponent of a number: nothing, or a letter, a sign and digits. -/
def exponent? : List Char → Option Int
  | [] => some 0
  | e :: sign :: d :: ds =>
    if (e == 'e' || e == 'E') && (sign == '+' || sign == '-') &&
        (d :: ds).all (fun c => (digitIn? 10 c).isSome) then
      let n : Int := Numeral.value (d :: ds)
      some (if sign == '-' then -n else n)
    else none
  | _ => none

/-- A number with a decimal point: digits, possibly none before the point, and an exponent. -/
def pointed? (negative signed : Bool) (cs : List Char) : Option Binary64 :=
  let whole := cs.takeWhile (isDigitOrGap 10)
  match cs.dropWhile (isDigitOrGap 10) with
  | '.' :: rest =>
    let fraction := rest.takeWhile (isDigitOrGap 10)
    let wellFormed :=
      match whole, fraction with
      | [], first :: _ => !signed && first != '_'
      | [], [] => false
      | first :: _, _ => first != '_'
    if !wellFormed then none
    else
      (exponent? (rest.dropWhile (isDigitOrGap 10))).map fun exponent =>
        let places := ungrouped fraction
        .ofDecimal negative (Numeral.value (ungrouped whole ++ places)) (exponent - places.length)
  | _ => none

/-- A number in base sixty whose last part has a fraction. -/
def pointedSixty? (negative : Bool) (cs : List Char) : Option Binary64 :=
  let whole := cs.takeWhile (· != '.')
  match cs.dropWhile (· != '.') with
  | '.' :: rest =>
    if rest.all (isDigitOrGap 10) && whole.head?.any fun c => (digitIn? 10 c).isSome then do
      let n ← sixtyValue? (← sixtieths? whole)
      let places := ungrouped rest
      let digits := n * Nat.pow 10 places.length + Numeral.value places
      return .ofDecimal negative digits (-places.length)
    else none
  | _ => none

/-- What looks like a binary number. -/
def float? (cs : List Char) : Option Binary64 :=
  let (negative, body) := splitSign cs
  let signed := body.length != cs.length
  if ["inf", "Inf", "INF"].any (fun w => body == '.' :: w.toList) then some (.infinite negative)
  else if !signed && ["nan", "NaN", "NAN"].any (fun w => body == '.' :: w.toList) then some .nan
  else (pointed? negative signed body).or (pointedSixty? negative body)

/-! ## Values -/

/-- What a plain scalar stands for, or none if it is refused. -/
def plainValue (cs : List Char) : Option Scalar :=
  if cs == ['='] || cs == ['<', '<'] then none
  else if nullWords.contains cs then some .null
  else
    match truthWords.lookup cs, float? cs, integer? cs with
    | some b, _, _ => some (.bool b)
    | none, some x, _ => some (.float x)
    | none, none, some value => value
    | none, none, none => some (.text (String.ofList cs))

end SemverRange.Yaml
