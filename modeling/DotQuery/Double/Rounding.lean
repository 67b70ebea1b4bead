import DotQuery.Double.Basic

/-!
# Rounding to doubles

`roundRatio n d` is the rank of the double nearest to the ratio `n / d`, and of two equally near the
one with the even rank. Integers, decimal numbers, products, quotients and radix digits are rounded
in the same way.
-/

namespace DotQuery.Double

/-- The quotient rounded to the nearest whole number, a tie to the even one. -/
def nearestQuotient (n d : Nat) : Nat :=
  let q := n / d
  let twice := 2 * (n % d)
  if twice < d then q else if d < twice then q + 1 else q + q % 2

/-- The rank nearest to `n / d` units. Ranks are `2 ^ s` units apart where the magnitude has
`53 + s` binary digits, so the significand is the quotient rounded to that many units. -/
def roundUnits (n d : Nat) : Nat :=
  let shift := (n / d).log2 - 52
  shift * binade + nearestQuotient n (d * Nat.pow 2 shift)

def roundRatio (n d : Nat) : Nat := roundUnits (n * unitsPerOne) d

def ofNat (n : Nat) : Double := ofRank false (roundRatio n 1)

def ofInt (i : Int) : Double := ofRank (decide (i < 0)) (roundRatio i.natAbs 1)

/-! ## Decimal numbers -/

/-- The rank nearest to `digits * 10 ^ exponent`. Exponents so large or small that the answer is
infinity or zero anyway are settled first. -/
def decimalRank (digits : Nat) (exponent : Int) : Nat :=
  if digits = 0 then 0
  else if 400 < exponent then infinityRank
  else if exponent + digits.log2 < -400 then 0
  else if 0 ≤ exponent then roundRatio (digits * Nat.pow 10 exponent.toNat) 1
  else roundRatio digits (Nat.pow 10 (-exponent).toNat)

def ofDecimal (negative : Bool) (digits : Nat) (exponent : Int) : Double :=
  ofRank negative (decimalRank digits exponent)

/-! ## Products and quotients -/

/-- The rank nearest to the product of the magnitudes of two ranks. -/
def product (x y : Nat) : Nat := roundUnits (units x * units y) unitsPerOne

/-- The rank nearest to the quotient of the magnitudes of two ranks. -/
def quotient (x y : Nat) : Nat := roundUnits (units x * unitsPerOne) (units y)

/-! ## Digit by digit -/

/-- Append a digit to a non-negative number: multiply by the radix, add, and round. -/
def appendDigit (radix : Nat) (x : Double) (digit : Nat) : Double :=
  match x with
  | finite y => ofRank false (roundUnits (units y.rank * radix + digit * unitsPerOne) 1)
  | other => other

end DotQuery.Double
