import DotQuery.Double.Decimal
import DotQuery.Text.Numeral

/-!
# Writing decimal numbers

`positional` writes all digits without an exponent. `Layout.write` writes short numbers that way,
always with a fraction, and all others with one digit before the point and an exponent.
-/

namespace DotQuery.Double.Decimal

def digitsText (x : Decimal) : Text := Text.ofNat x.digits

/-- All digits, with zeros up to the point; no point without a fraction. -/
def positional (x : Decimal) : Text :=
  let ds := x.digitsText
  if 0 ≤ x.exponent then ds ++ List.replicate x.exponent.toNat '0'
  else
    let places := (-x.exponent).toNat
    let ds := List.replicate (places + 1 - ds.length) '0' ++ ds
    ds.take (ds.length - places) ++ '.' :: ds.drop (ds.length - places)

/-- The exponent of the first digit. -/
def leadingExponent (x : Decimal) : Int := x.exponent + x.digitsText.length - 1

/-- One digit, the others after a point if there are any, and the exponent with its sign. -/
def scientific (x : Decimal) : Text :=
  let e := x.leadingExponent
  let sign : Text := if e < 0 then [] else ['+']
  match x.digitsText with
  | d :: rest@(_ :: _) => d :: '.' :: rest ++ 'e' :: sign ++ Text.ofInt e
  | ds => ds ++ 'e' :: sign ++ Text.ofInt e

/-- The exponents of the first digit that are written without an exponent. -/
structure Layout where
  least : Int
  greatest : Int

def Layout.write (layout : Layout) (x : Decimal) : Text :=
  if layout.least ≤ x.leadingExponent ∧ x.leadingExponent ≤ layout.greatest then
    if 0 ≤ x.exponent then x.positional ++ ['.', '0'] else x.positional
  else x.scientific

end DotQuery.Double.Decimal
