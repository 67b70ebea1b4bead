import DotQuery.Double.Rounding

/-!
# Shortest decimal digits

`shortest tie r` is the decimal number with the fewest digits that rounds to the double of rank `r`,
and of those the nearest to it. On each grid of multiples of a power of ten only the two neighbours
of the double can be the nearest that rounds to it, so the first grid, from coarse to fine, with a
neighbour that does has the answer. Zero is written as the digit 0.
-/

namespace DotQuery.Double

/-- The number `digits * 10 ^ exponent`. -/
structure Decimal where
  digits : Nat
  exponent : Int
deriving DecidableEq

namespace Decimal

def rank (x : Decimal) : Nat := decimalRank x.digits x.exponent

end Decimal

/-- Which of two equally near decimal numbers is taken. -/
inductive Tie where
  | toEven
  | up
deriving DecidableEq

/-- The magnitude of a rank as a ratio with multiples of `10 ^ exponent`. -/
def onGrid (rank : Nat) (exponent : Int) : Nat × Nat :=
  if 0 ≤ exponent then (units rank, unitsPerOne * Nat.pow 10 exponent.toNat)
  else (units rank * Nat.pow 10 (-exponent).toNat, unitsPerOne)

/-- The neighbour on a grid that rounds to the double; of two, the nearer. -/
def hitOnGrid (tie : Tie) (rank : Nat) (exponent : Int) : Option Decimal :=
  let (n, d) := onGrid rank exponent
  let below : Decimal := ⟨n / d, exponent⟩
  let above : Decimal := ⟨n / d + 1, exponent⟩
  let twice := 2 * (n % d)
  let upward :=
    match tie with
    | .toEven => decide (d < twice) || (decide (twice = d) && decide (below.digits % 2 = 1))
    | .up => decide (d ≤ twice)
  match decide (below.rank = rank), decide (above.rank = rank) with
  | true, true => some (if upward then above else below)
  | true, false => some below
  | false, true => some above
  | false, false => none

/-- Every finite magnitude is a decimal number, with as many places as its unit has. -/
def exactDecimal (rank : Nat) : Decimal := ⟨units rank * Nat.pow 5 1074, -1074⟩

/-- The first hit on the grids of `10 ^ exponent` and the next `fuel - 1` finer ones. -/
def firstHit (tie : Tie) (rank : Nat) : Nat → Int → Decimal
  | 0, _ => exactDecimal rank
  | fuel + 1, exponent =>
    match hitOnGrid tie rank exponent with
    | some x => x
    | none => firstHit tie rank fuel (exponent - 1)

/-- A power of ten above the magnitude: `10 ^ 3` is near `2 ^ 10`, so a third of the binary exponent
is enough above one and a quarter of it below. -/
def coarseExponent (rank : Nat) : Int :=
  let binary : Int := (units rank).log2 - 1074
  (if 0 ≤ binary then binary / 3 else binary / 4) + 1

def shortest (tie : Tie) (rank : Nat) : Decimal :=
  if rank = 0 then ⟨0, 0⟩ else firstHit tie rank 128 (coarseExponent rank)

end DotQuery.Double
