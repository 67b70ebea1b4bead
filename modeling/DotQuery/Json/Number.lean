import DotQuery.Double.Literal
import DotQuery.Json.Value

/-!
# JSON numbers

Whole numbers of 64 bits are read exactly, all others as doubles. Such a double is near the number,
but not always the nearest to it: the digits that fit 64 bits are scaled by a power of ten, and each
step of that is rounded. So `1.38e-23` is read as the double below the nearest one, and
`1.7976931348623158e308` is refused although the greatest double is the nearest to it.
-/

namespace DotQuery.Json

/-! ## Digits -/

/-- Append digits to a number as long as it fits 64 bits. The digits that are left come second. -/
def appendDigits (n : Nat) : Text → Nat × Text
  | [] => (n, [])
  | c :: ds =>
    let next := 10 * n + (c.toNat - '0'.toNat)
    if next < Text.wordLimit then appendDigits next ds else (n, c :: ds)

/-- The digits of a literal that fit, with the exponent of the last of them. Where whole digits are
left, those after the point are tried again. -/
def significand (l : Double.Literal) : Double.Decimal :=
  let places := l.fraction.getD []
  let (whole, wholeLeft) := appendDigits 0 l.whole
  let (digits, placesLeft) := appendDigits whole places
  ⟨digits, l.exponent.getD 0 - places.length + (wholeLeft.length + placesLeft.length)⟩

/-! ## Scaling -/

/-- The greatest power of ten among the doubles has this exponent. -/
def powerLimit : Nat := 308

def powerRank (exponent : Nat) : Nat := Double.decimalRank 1 exponent

/-- Divide the magnitude of a rank by a power of ten, by the greatest one as often as it takes. -/
def divideByPower (rank exponent : Nat) : Nat :=
  if exponent ≤ powerLimit then Double.quotient rank (powerRank exponent)
  else if rank = 0 then 0
  else divideByPower (Double.quotient rank (powerRank powerLimit)) (exponent - powerLimit)
termination_by exponent
decreasing_by unfold powerLimit at *; omega

/-- A rank near a decimal number. -/
def scaledRank (x : Double.Decimal) : Nat :=
  let rank := Double.roundRatio x.digits 1
  if x.exponent < 0 then divideByPower rank (-x.exponent).toNat
  else if x.exponent ≤ powerLimit then Double.product rank (powerRank x.exponent.toNat)
  else if rank = 0 then 0
  else Double.infinityRank

/-! ## Numbers -/

/-- A number: no leading zeros, and digits on both sides of a point. Whole numbers of 64 bits are
kept exactly, with a sign or without; all others are doubles and must be finite. -/
def number? (t : Text) : Option Number := do
  let (negative, t) : Bool × Text := match t with | '-' :: r => (true, r) | r => (false, r)
  let l ← Double.Literal.ofText? t
  guard (l.whole ≠ [] ∧ l.fraction ≠ some [] ∧ (l.whole.head? = some '0' → l.whole.length = 1))
  let n := l.whole.natural
  let isWhole := l.fraction.isNone && l.exponent.isNone
  if isWhole && !negative && n < Text.wordLimit then return .whole n
  else if isWhole && negative && 0 < n && n ≤ Text.wordLimit / 2 then return .whole (-n)
  else
    let rank := scaledRank (significand l)
    if h : rank < Double.infinityRank then return .real ⟨negative, rank, h⟩ else none

end DotQuery.Json
