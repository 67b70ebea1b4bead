/-!
# Doubles

A `Double` is a binary floating point number of 64 bits, modelled exactly. A finite double is a sign
and the rank of its magnitude among all finite magnitudes: rank 0 is zero, rank 1 the smallest
positive magnitude, and a larger rank is a larger magnitude. `units` is that magnitude as a multiple
of the smallest one, so every finite double is a whole number of `2 ^ -1074`.
-/

namespace DotQuery

namespace Double

/-- The number of magnitudes with the same exponent. -/
def binade : Nat := Nat.pow 2 52

/-- The number of finite magnitudes: one binade for each of 2047 exponents. -/
def infinityRank : Nat := 2047 * binade

/-- The finite magnitude of a rank, as a multiple of `2 ^ -1074`. In the first two binades the
magnitudes are one unit apart; after that the distance doubles with every binade. -/
def units (rank : Nat) : Nat :=
  if rank < 2 * binade then rank
  else (binade + rank % binade) * Nat.pow 2 (rank / binade - 1)

/-- The number of units in one. -/
def unitsPerOne : Nat := Nat.pow 2 1074

structure Finite where
  negative : Bool
  rank : Nat
  rank_lt : rank < infinityRank
deriving DecidableEq

end Double

inductive Double where
  | nan
  | infinite (negative : Bool)
  | finite (x : Double.Finite)
deriving DecidableEq

namespace Double

def Finite.zero : Finite := ⟨false, 0, by decide⟩

def Finite.one : Finite := ⟨false, 1023 * binade, by decide⟩

def zero : Double := .finite .zero

def one : Double := .finite .one

def ofBool (b : Bool) : Double := if b then one else zero

/-- The magnitude of a rank with a sign; infinite from `infinityRank` on. -/
def ofRank (negative : Bool) (rank : Nat) : Double :=
  if h : rank < infinityRank then .finite ⟨negative, rank, h⟩ else .infinite negative

/-- The rank of the magnitude, where infinity comes after all finite ones. -/
def rank? : Double → Option (Bool × Nat)
  | nan => none
  | infinite negative => some (negative, infinityRank)
  | finite x => some (x.negative, x.rank)

/-! ## Order -/

/-- The place of a number on the line of all doubles; the two zeros share one. -/
def place? (x : Double) : Option Int :=
  x.rank?.map fun (negative, rank) => if negative then -(rank : Int) else rank

def isNan (x : Double) : Bool := x.place?.isNone

/-- A comparison of two doubles holds only if neither is NaN. -/
def compareWith (holds : Int → Int → Bool) (x y : Double) : Bool :=
  match x.place?, y.place? with
  | some i, some j => holds i j
  | _, _ => false

def eq (x y : Double) : Bool := compareWith (fun i j => decide (i = j)) x y

def lt (x y : Double) : Bool := compareWith (fun i j => decide (i < j)) x y

def le (x y : Double) : Bool := compareWith (fun i j => decide (i ≤ j)) x y

/-! ## Bits -/

/-- The word of 64 bits that stores a double: a sign bit above the rank. -/
def toBits (x : Double) : Nat :=
  match x.rank? with
  | none => infinityRank + binade / 2
  | some (negative, rank) => (if negative then 2048 * binade else 0) + rank

end Double

end DotQuery
