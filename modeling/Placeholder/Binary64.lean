/-!
# Finite binary64 numbers

A finite double is a sign and a mantissa times a power of two, all in exact arithmetic.
`Binary64.ofDecimal?` rounds a decimal to the nearest one, a tie to the even mantissa, and
`Binary64.shortest` finds the fewest decimal digits that round back. Infinities and NaN are not
modelled: a decimal that is too large has no value here.
-/
namespace Placeholder

/-- The number `± mantissa * 2 ^ exponent`. -/
structure Binary64 where
  negative : Bool
  mantissa : Nat
  exponent : Int
  deriving DecidableEq, Repr

/-- The number `digits * 10 ^ exponent`. -/
structure Decimal where
  digits : Nat
  exponent : Int
  deriving DecidableEq, Repr

namespace Decimal

def fraction (d : Decimal) : Nat × Nat :=
  (d.digits * Nat.pow 10 d.exponent.toNat, Nat.pow 10 (-d.exponent).toNat)

def width (d : Decimal) : Nat := (Nat.toDigits 10 d.digits).length

end Decimal

namespace Binary64

/-- The least exponent, that of zero and of the subnormal numbers. -/
def minExponent : Int := -1074

/-- The greatest exponent of a mantissa of 53 bits. -/
def maxExponent : Int := 971

/-- The least mantissa of 53 bits. -/
def leastNormal : Nat := 0x10000000000000

def zero (negative : Bool) : Binary64 := ⟨negative, 0, minExponent⟩

def one : Binary64 := ⟨false, leastNormal, -52⟩

def isZero (x : Binary64) : Bool := x.mantissa == 0

/-- The quotient rounded to the nearest whole number, a tie to the even one. -/
def roundHalfEven (num den : Nat) : Nat :=
  let quotient := num / den
  match compare (2 * (num % den)) den with
  | .lt => quotient
  | .gt => quotient + 1
  | .eq => quotient + quotient % 2

/-- The quotient `num / den * 2 ^ (-exponent)` as a fraction. -/
def scaled (num den : Nat) (exponent : Int) : Nat × Nat :=
  (num <<< (-exponent).toNat, den <<< exponent.toNat)

/-- The exponent that gives the quotient a mantissa of 53 bits, or the least exponent. -/
def exponentOf (num den : Nat) : Int :=
  let guess : Int := Int.ofNat num.log2 - Int.ofNat den.log2 - 52
  let (n, d) := scaled num den guess
  max minExponent (if n / d < leastNormal then guess - 1 else guess)

/-- The nearest double of a positive quotient; none when it is too large. -/
def ofQuotient? (negative : Bool) (num den : Nat) : Option Binary64 :=
  let exponent := exponentOf num den
  let (n, d) := scaled num den exponent
  let mantissa := roundHalfEven n d
  let (mantissa, exponent) :=
    if mantissa = 2 * leastNormal then (leastNormal, exponent + 1) else (mantissa, exponent)
  if exponent > maxExponent then none else some ⟨negative, mantissa, exponent⟩

/-- The nearest double of a decimal; none when it is too large. -/
def ofDecimal? (negative : Bool) (d : Decimal) : Option Binary64 :=
  let magnitude := d.exponent + d.width
  if d.digits = 0 || magnitude < -330 then some (zero negative)
  else if magnitude > 310 then none
  else
    let (num, den) := d.fraction
    ofQuotient? negative num den

def fraction (x : Binary64) : Nat × Nat :=
  (x.mantissa <<< x.exponent.toNat, 1 <<< (-x.exponent).toNat)

/-- Order of the values; the two zeros are equal. -/
def le (x y : Binary64) : Bool :=
  let (xn, xd) := x.fraction
  let (yn, yd) := y.fraction
  match x.negative && !x.isZero, y.negative && !y.isZero with
  | false, false => xn * yd ≤ yn * xd
  | true, true => yn * xd ≤ xn * yd
  | true, false => true
  | false, true => x.isZero && y.isZero

/-- The nearest number of the interval from 0 to 1. -/
def clampUnit (x : Binary64) : Binary64 :=
  if !le (zero false) x then zero false
  else if !le x one then one
  else x

/-- The reals that round to the absolute value, ends first: a quarter of the unit below a power
of two, half a unit elsewhere. All three over the common denominator `den`. -/
structure Neighbourhood where
  low : Nat
  value : Nat
  high : Nat
  den : Nat
  closed : Bool

def neighbourhood (x : Binary64) : Neighbourhood :=
  let atPower := x.mantissa = leastNormal ∧ x.exponent > minExponent
  let up := x.exponent.toNat
  { low := (4 * x.mantissa - if atPower then 1 else 2) <<< up
    value := 4 * x.mantissa <<< up
    high := (4 * x.mantissa + 2) <<< up
    den := 4 <<< (-x.exponent).toNat
    closed := x.mantissa % 2 = 0 }

namespace Neighbourhood

def contains (n : Neighbourhood) (d : Decimal) : Bool :=
  let (num, den) := d.fraction
  let point := num * n.den
  if n.closed then n.low * den ≤ point && point ≤ n.high * den
  else n.low * den < point && point < n.high * den

/-- The decimal with this exponent just below the value, or the one just above, whichever lies in
the neighbourhood; of the two the nearer, and the even one of two equally near. -/
def onGrid? (n : Neighbourhood) (exponent : Int) : Option Decimal :=
  let num := n.value * Nat.pow 10 (-exponent).toNat
  let den := n.den * Nat.pow 10 exponent.toNat
  let below : Decimal := ⟨num / den, exponent⟩
  let above : Decimal := ⟨num / den + 1, exponent⟩
  match n.contains below, n.contains above with
  | true, false => some below
  | false, true => some above
  | false, false => none
  | true, true => some (if roundHalfEven num den = below.digits then below else above)

end Neighbourhood

/-- The exponent `e` with `10 ^ e ≤ value < 10 ^ (e + 1)`. -/
def leadingExponent (num den : Nat) : Int :=
  if den ≤ num then Int.ofNat ((Nat.toDigits 10 (num / den)).length - 1)
  else -Int.ofNat (Nat.toDigits 10 ((den - 1) / num)).length

def stripZeros : Nat → Decimal → Decimal
  | 0, d => d
  | fuel + 1, d =>
    if d.digits % 10 = 0 && d.digits ≠ 0 then stripZeros fuel ⟨d.digits / 10, d.exponent + 1⟩
    else d

/-- The fewest digits that round to the absolute value; 17 always do. -/
def shortest (x : Binary64) : Decimal :=
  if x.isZero then ⟨0, 0⟩
  else
    let n := x.neighbourhood
    let lead := leadingExponent n.value n.den
    let found := (List.range 18).findSome? fun width => n.onGrid? (lead - Int.ofNat width)
    stripZeros 20 (found.getD ⟨0, 0⟩)

/-- How a double is written: positional from `1e-5` up to `1e16` with at least one decimal place,
else with an exponent that has neither plus sign nor padding. -/
def text (x : Binary64) : String :=
  let sign := if x.negative then "-" else ""
  let d := x.shortest
  let digits := Nat.toDigits 10 d.digits
  let point := d.exponent + Int.ofNat digits.length
  let body :=
    if x.isZero then ['0', '.', '0']
    else if 0 ≤ d.exponent && point ≤ 16 then
      digits ++ List.replicate d.exponent.toNat '0' ++ ['.', '0']
    else if 0 < point && point ≤ 16 then
      digits.take point.toNat ++ ['.'] ++ digits.drop point.toNat
    else if -5 < point && point ≤ 0 then
      ['0', '.'] ++ List.replicate (-point).toNat '0' ++ digits
    else
      let mark := 'e' :: (toString (point - 1)).toList
      match digits with
      | [d] => d :: mark
      | d :: more => d :: '.' :: more ++ mark
      | [] => mark
  sign ++ String.ofList body

end Binary64
end Placeholder
