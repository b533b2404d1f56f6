/-!
# Binary floating-point numbers

**The value** (`Binary64`). A sign with a natural significand below `2 ^ 53` and an exponent of
at least `-1074`, one of the infinities, or not a number. The value of a finite one is
`significand * 2 ^ exponent`.

**Rounding** (`ofRatio`, `ofDecimal`). A ratio of naturals goes to the nearest such value, a tie
to the even significand, all in exact arithmetic. The exponent is the least one at which the
significand fits.

Main statement: `roundDiv_near`, the rounded quotient is within half a unit.
-/

namespace SemverRange

/-- A binary floating-point number with a significand of 53 bits. -/
inductive Binary64 where
  | nan
  | infinite (negative : Bool)
  | finite (negative : Bool) (significand : Nat) (exponent : Int)
  deriving DecidableEq

namespace Binary64

def minExponent : Int := -1074

def maxExponent : Int := 971

/-- `num / den` as the nearest natural; a tie goes to the even one. -/
def roundDiv (num den : Nat) : Nat :=
  let q := num / den
  let r := num % den
  if 2 * r < den || (2 * r == den && q % 2 == 0) then q else q + 1

theorem roundDiv_near {num den : Nat} (h : 0 < den) :
    2 * num ≤ (2 * roundDiv num den + 1) * den ∧ (2 * roundDiv num den) * den ≤ 2 * num + den := by
  have hdiv := Nat.div_add_mod num den
  have hlt := Nat.mod_lt num h
  have hcomm : den * (num / den) = num / den * den := Nat.mul_comm ..
  simp only [roundDiv]
  split
  next hc =>
    have : 2 * (num % den) ≤ den := by simp at hc; omega
    simp only [Nat.add_mul, Nat.mul_assoc]
    omega
  next hc =>
    have : den ≤ 2 * (num % den) := by simp at hc; omega
    simp only [Nat.add_mul, Nat.mul_add, Nat.mul_assoc]
    omega

/-- The ratio `num / den` times `2 ^ k`. -/
def scale (num den : Nat) (k : Int) : Nat × Nat :=
  if 0 ≤ k then (num * Nat.pow 2 k.toNat, den) else (num, den * Nat.pow 2 (-k).toNat)

/-- The exponent of the greatest power of two that is at most `num / den`. -/
def leadingExponent (num den : Nat) : Int :=
  let e : Int := num.log2 - den.log2
  let (a, b) := scale num den (-e)
  if b ≤ a then e else e - 1

def ofRatio (negative : Bool) (num den : Nat) : Binary64 :=
  if num = 0 then finite negative 0 minExponent
  else
    let e := max (leadingExponent num den - 52) minExponent
    let (a, b) := scale num den (-e)
    let m := roundDiv a b
    let (m, e) := if m = Nat.pow 2 53 then (Nat.pow 2 52, e + 1) else (m, e)
    if maxExponent < e then infinite negative else finite negative m e

/-- The value nearest to `digits * 10 ^ exponent`. Far outside the range of the type the answer
is known without forming the power. -/
def ofDecimal (negative : Bool) (digits : Nat) (exponent : Int) : Binary64 :=
  let size : Int := (Nat.toDigits 10 digits).length + exponent
  if digits = 0 || size < -400 then finite negative 0 minExponent
  else if 400 < size then infinite negative
  else if 0 ≤ exponent then ofRatio negative (digits * Nat.pow 10 exponent.toNat) 1
  else ofRatio negative digits (Nat.pow 10 (-exponent).toNat)

/-- The integer that the value equals, if it equals one. -/
def toInt? : Binary64 → Option Int
  | finite negative m e =>
    let magnitude : Option Nat :=
      if 0 ≤ e then some (m * Nat.pow 2 e.toNat)
      else if m % Nat.pow 2 (-e).toNat = 0 then some (m / Nat.pow 2 (-e).toNat) else none
    magnitude.map fun n => if negative then -(n : Int) else n
  | _ => none

end Binary64

end SemverRange
