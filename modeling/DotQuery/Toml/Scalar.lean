import DotQuery.Double.Literal
import DotQuery.Text.Fields

/-!
# TOML values and scalars

`Toml.scalar?` reads a word without quotes: a boolean, an integer, a float, or a date or time. An
underscore may stand between two digits. Dates and times are checked and kept as texts in one
spelling. Numbers are read whatever their size; `Toml.hasValue` says that all of a value can be
represented.
-/

namespace DotQuery

inductive Toml where
  | string (t : Text)
  | integer (i : Int)
  /-- A float, unless it is too large for a double. -/
  | float (x : Option Double)
  | boolean (b : Bool)
  | datetime (t : Text)
  | array (items : List Toml)
  | table (fields : List (Text × Toml))

namespace Toml

instance : Inhabited Toml := ⟨boolean false⟩

/-! ## Numbers -/

/-- Digits with the underscores between them left out. -/
def plainDigits? (isDigit : Char → Bool) : Text → Option Text
  | [] => none
  | [c] => if isDigit c then some [c] else none
  | c :: '_' :: t => if isDigit c then (plainDigits? isDigit t).map (c :: ·) else none
  | c :: t => if isDigit c then (plainDigits? isDigit t).map (c :: ·) else none

/-- Decimal digits without a leading zero. -/
def wholeDigits? (t : Text) : Option Text :=
  (plainDigits? isDigit t).filter fun ds => ds.head? != some '0' || ds.length == 1

def cutSign : Text → Bool × Text
  | '-' :: t => (true, t)
  | '+' :: t => (false, t)
  | t => (false, t)

def radixInteger? (radix : Nat) (t : Text) : Option Int := do
  let ds ← plainDigits? (fun c => (digitValue? radix c).isSome) t
  let values ← ds.mapM (digitValue? radix)
  return (values.foldl (fun n d => radix * n + d) 0 : Nat)

def integer? : Text → Option Int
  | '0' :: 'x' :: ds => radixInteger? 16 ds
  | '0' :: 'o' :: ds => radixInteger? 8 ds
  | '0' :: 'b' :: ds => radixInteger? 2 ds
  | t =>
    let (negative, t) := cutSign t
    (wholeDigits? t).map fun ds => if negative then -(ds.natural : Int) else ds.natural

def isExponentMark (c : Char) : Bool := c == 'e' || c == 'E'

def exponent? (t : Text) : Option Int := do
  let (negative, t) := cutSign t
  let ds ← plainDigits? isDigit t
  return if negative then -(ds.natural : Int) else ds.natural

/-- A finite number has a fraction, an exponent or both. -/
def finite? (t : Text) : Option Double.Literal := do
  let mantissa := t.takeWhile fun c => !isExponentMark c
  let exponent ←
    match t.dropWhile fun c => !isExponentMark c with
    | [] => some none
    | _ :: e => (exponent? e).map some
  match Text.cutAtFirst ['.'] mantissa with
  | some (whole, fraction) =>
    return ⟨← wholeDigits? whole, some (← plainDigits? isDigit fraction), exponent⟩
  | none =>
    guard exponent.isSome
    return ⟨← wholeDigits? mantissa, none, exponent⟩

def float? (t : Text) : Option Toml :=
  let (negative, t) := cutSign t
  if t = "inf".toList then some (float (some (.infinite negative)))
  else if t = "nan".toList then some (float (some .nan))
  else
    (finite? t).map fun l =>
      let rank := l.value.rank
      float (if rank < Double.infinityRank then some (.ofRank negative rank) else none)

/-! ## Dates and times -/

/-- A number of exactly `n` digits, and the rest. -/
def fixed? (n : Nat) (t : Text) : Option (Nat × Text) :=
  let ds := t.take n
  if ds.length = n ∧ ds.all isDigit then some (Text.natural ds, t.drop n) else none

def daysOfMonth (year month : Nat) : Nat :=
  if month = 2 then
    if year % 4 = 0 ∧ (year % 100 ≠ 0 ∨ year % 400 = 0) then 29 else 28
  else if month = 4 ∨ month = 6 ∨ month = 9 ∨ month = 11 then 30
  else 31

/-- What follows a character that must come first. -/
def after? (c : Char) : Text → Option Text
  | d :: t => if c = d then some t else none
  | [] => none

/-- What follows a date. -/
def afterDate? (t : Text) : Option Text := do
  let (year, t) ← fixed? 4 t
  let (month, t) ← fixed? 2 (← after? '-' t)
  let (day, t) ← fixed? 2 (← after? '-' t)
  guard (1 ≤ month ∧ month ≤ 12 ∧ 1 ≤ day ∧ day ≤ daysOfMonth year month)
  return t

/-- The fraction of a second up to nanoseconds, without zeros at its end. -/
def fractionText (ds : Text) : Text :=
  match ((ds.take 9).reverse.dropWhile (· == '0')).reverse with
  | [] => []
  | ds => '.' :: ds

/-- A time in one spelling, and the rest. -/
def cutTime? (t : Text) : Option (Text × Text) := do
  let (hour, r) ← fixed? 2 t
  let (minute, r) ← fixed? 2 (← after? ':' r)
  let (second, r) ← fixed? 2 (← after? ':' r)
  guard (hour ≤ 23 ∧ minute ≤ 59 ∧ second ≤ 60)
  match r with
  | '.' :: r =>
    let ds := r.takeWhile isDigit
    guard (ds ≠ [])
    return (t.take 8 ++ fractionText ds, r.dropWhile isDigit)
  | r => return (t.take 8, r)

/-- The distance from universal time, or none for a local time. No distance is a positive one. -/
def offset? : Text → Option Text
  | [] => some []
  | ['Z'] => some ['Z']
  | ['z'] => some ['Z']
  | c :: t => do
    guard (c = '+' ∨ c = '-')
    let (hour, r) ← fixed? 2 t
    let (minute, r) ← fixed? 2 (← after? ':' r)
    guard (hour ≤ 23 ∧ minute ≤ 59 ∧ r = [])
    return (if hour = 0 ∧ minute = 0 then '+' else c) :: t

def isDateMark (c : Char) : Bool := c == 'T' || c == 't' || c == ' '

def datetime? (t : Text) : Option Text :=
  match afterDate? t with
  | some [] => some t
  | some (c :: r) => do
    guard (isDateMark c)
    let (time, r) ← cutTime? r
    return t.take 10 ++ 'T' :: time ++ (← offset? r)
  | none =>
    match cutTime? t with
    | some (time, []) => some time
    | _ => none

/-! ## Words -/

def isDate (t : Text) : Bool := afterDate? t == some []

def scalar? (t : Text) : Option Toml :=
  if t = "true".toList then some (boolean true)
  else if t = "false".toList then some (boolean false)
  else
    match integer? t, float? t, datetime? t with
    | some i, _, _ => some (integer i)
    | _, some x, _ => some x
    | _, _, some d => some (datetime d)
    | _, _, _ => none

/-! ## Values -/

mutual

/-- Integers have up to 128 bits, with a sign or without, and floats are doubles. -/
def hasValue : Toml → Bool
  | integer i => -(Nat.pow 2 127 : Int) ≤ i && i < Nat.pow 2 128
  | float x => x.isSome
  | array items => itemsHaveValues items
  | table fields => fieldsHaveValues fields
  | _ => true

def itemsHaveValues : List Toml → Bool
  | [] => true
  | v :: vs => v.hasValue && itemsHaveValues vs

def fieldsHaveValues : List (Text × Toml) → Bool
  | [] => true
  | (_, v) :: fs => v.hasValue && fieldsHaveValues fs

end

end Toml

end DotQuery
