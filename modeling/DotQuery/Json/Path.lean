import DotQuery.Json.Value
import DotQuery.Text.Numeral

/-!
# Paths

A path is names and array places between dots, without filters or projections. The empty path is the
document itself.
-/

namespace DotQuery

/-- The number of a step: digits, perhaps after a plus, that fit 64 bits. -/
def placeOfStep? : Text → Option Nat
  | '+' :: ds => Text.natural? ds
  | ds => Text.natural? ds

/-- The field or item that a step leads to. -/
def Value.step? (v : Value) (step : Text) : Option Value :=
  match v with
  | .object fields => fields.lookup step
  | .array items => (placeOfStep? step).bind fun place => items[place]?
  | _ => none

def Value.walk : Value → List Text → Option Value
  | v, [] => some v
  | v, step :: steps => (v.step? step).bind fun w => w.walk steps

def Value.atPath? (v : Value) (path : Text) : Option Value :=
  if path = [] then some v else v.walk (path.splitOn '.')

end DotQuery
