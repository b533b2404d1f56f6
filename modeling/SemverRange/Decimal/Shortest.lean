import SemverRange.Decimal.Binary64

/-!
# The shortest decimal text of a binary number

**Selection** (`shortest`). A finite positive value is the centre of an interval of reals that
round to it; the ends belong to it when the significand is even. Among the decimal grids, from
the coarsest on, the first one with a point in the interval is taken, and of its two points next
to the value the nearer one that lies in the interval.

**Layout** (`Binary64.text`). The digits are written positionally when the point falls within
sixteen digits after or three zeros before them, always with a digit on either side of the point;
otherwise with an exponent of at least two digits and a sign.
-/

namespace SemverRange.Binary64

/-! ## Selection -/

/-- The interval of a value in units of `2 ^ (exponent - 2)`: lower end, centre, upper end. Below
a power of two the spacing halves. -/
def interval (m : Nat) (e : Int) : Nat × Nat × Nat :=
  (4 * m - (if m = Nat.pow 2 52 ∧ minExponent < e then 1 else 2), 4 * m, 4 * m + 2)

/-- The point of the grid of multiples of `10 ^ g` in the interval of `m * 2 ^ e` that is nearest
to the value, as a multiple. -/
def gridPoint? (m : Nat) (e g : Int) : Option Nat :=
  let (lo, mid, hi) := interval m e
  -- `k` units against `x` steps of the grid are `k * a` against `x * b`
  let a := Nat.pow 2 (e - 2).toNat * Nat.pow 10 (-g).toNat
  let b := Nat.pow 10 g.toNat * Nat.pow 2 (2 - e).toNat
  let inside (x : Nat) : Bool :=
    if m % 2 = 0 then lo * a ≤ x * b && x * b ≤ hi * a else lo * a < x * b && x * b < hi * a
  let below := mid * a / b
  let toBelow := mid * a - below * b
  let toAbove := (below + 1) * b - mid * a
  match inside below, inside (below + 1) with
  | true, true =>
    some (if toBelow < toAbove || (toBelow == toAbove && below % 2 == 0) then below else below + 1)
  | true, false => some below
  | false, true => some (below + 1)
  | false, false => none

/-- The first hit among `steps` grids from `g` downwards. -/
def search (m : Nat) (e : Int) : Nat → Int → Nat × Int
  | 0, g => (0, g)
  | steps + 1, g =>
    match gridPoint? m e g with
    | some x => (x, g)
    | none => search m e steps (g - 1)

/-- The shortest decimal of `m * 2 ^ e` as a factor and an exponent of ten. A grid two places
above the value has no inner point, and seventeen digits always suffice. -/
def shortest (m : Nat) (e : Int) : Nat × Int :=
  search m e 24 ((m.log2 + 1 + e) * 30103 / 100000 + 2)

/-! ## Layout -/

/-- Digits without the zeros at their end. -/
def significant (n : Nat) : List Char := ((Nat.toDigits 10 n).reverse.dropWhile (· == '0')).reverse

/-- The digits `ds` with the decimal point after `point` of them, counted from the first. -/
def layout (ds : List Char) (point : Int) : List Char :=
  if -4 < point ∧ point ≤ 16 then
    if point ≤ 0 then ['0', '.'] ++ List.replicate (-point).toNat '0' ++ ds
    else if ds.length ≤ point.toNat then
      ds ++ List.replicate (point.toNat - ds.length) '0' ++ ['.', '0']
    else ds.take point.toNat ++ ['.'] ++ ds.drop point.toNat
  else
    let power := point - 1
    let places := Nat.toDigits 10 power.natAbs
    ds.take 1 ++ (if ds.length = 1 then [] else '.' :: ds.drop 1) ++
      ['e', if power < 0 then '-' else '+'] ++ List.replicate (2 - places.length) '0' ++ places

/-- The shortest text that reads back as the value. -/
def text : Binary64 → String
  | nan => "nan"
  | infinite negative => if negative then "-inf" else "inf"
  | finite negative m e =>
    let body :=
      if m = 0 then ['0', '.', '0']
      else
        let (n, g) := shortest m e
        layout (significant n) ((Nat.toDigits 10 n).length + g)
    String.ofList ((if negative then ['-'] else []) ++ body)

end SemverRange.Binary64
