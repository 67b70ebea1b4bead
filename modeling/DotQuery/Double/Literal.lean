import DotQuery.Double.Decimal
import DotQuery.Text.Numeral

/-!
# Decimal literals

The text of an unsigned decimal number is cut into its whole digits, the digits after a point and an
exponent. Which of them may be missing is for the reader of a format to say.
-/

namespace DotQuery.Double

structure Literal where
  whole : Text
  fraction : Option Text
  exponent : Option Int
deriving DecidableEq

namespace Literal

/-- An optional sign and digits. -/
def signed? : Text → Option Int
  | '+' :: ds => if Text.allDigits ds then some (Text.natural ds : Int) else none
  | '-' :: ds => if Text.allDigits ds then some (-(Text.natural ds : Int)) else none
  | ds => if Text.allDigits ds then some (Text.natural ds : Int) else none

def ofText? (t : Text) : Option Literal :=
  let whole := t.takeWhile isDigit
  let (fraction, rest) : Option Text × Text :=
    match t.dropWhile isDigit with
    | '.' :: r => (some (r.takeWhile isDigit), r.dropWhile isDigit)
    | r => (none, r)
  match rest with
  | [] => some ⟨whole, fraction, none⟩
  | c :: r =>
    if c = 'e' ∨ c = 'E' then (signed? r).map fun e => ⟨whole, fraction, some e⟩ else none

/-- All digits, with the exponent of the last of them. -/
def value (x : Literal) : Decimal :=
  let places := x.fraction.getD []
  ⟨(x.whole ++ places).natural, x.exponent.getD 0 - places.length⟩

end Literal

end DotQuery.Double
