import DotQuery.Double.Literal
import DotQuery.Double.Notation
import DotQuery.Json.Value

/-!
# Loose comparison

A value of a document is compared with the text of a condition by converting one to the other.
`Loose.number` and `Loose.numberOfText` are the two sides of an order, where NaN stands for "not a
number"; `Loose.equal` is equality; `Loose.text` is a value as text.
-/

namespace DotQuery.Loose

/-! ## Texts as numbers -/

/-- The number of a run of digits, rounded after each of them; NaN if there is none. -/
def radixNumber (radix : Nat) (digits : Text) : Double :=
  if digits = [] then .nan
  else
    match digits.mapM (digitValue? radix) with
    | some ds => ds.foldl (Double.appendDigit radix) .zero
    | none => .nan

/-- The digits after a mark for radix 16, 8 or 2, with the radix. -/
def radixDigits? : Text → Option (Nat × Text)
  | '0' :: c :: digits =>
    if c = 'x' ∨ c = 'X' then some (16, digits)
    else if c = 'o' ∨ c = 'O' then some (8, digits)
    else if c = 'b' ∨ c = 'B' then some (2, digits)
    else none
  | _ => none

/-- A sign in front of a text, and the rest; no sign is a plus. -/
def cutSign : Text → Bool × Text
  | '-' :: t => (true, t)
  | '+' :: t => (false, t)
  | t => (false, t)

/-- A decimal number has a digit before or after its point. -/
def decimalNumber (t : Text) : Double :=
  let (negative, t) := cutSign t
  match Double.Literal.ofText? t with
  | some l =>
    if l.whole = [] ∧ l.fraction.getD [] = [] then .nan
    else .ofDecimal negative l.value.digits l.value.exponent
  | none => .nan

def numberOfText (t : Text) : Double :=
  let t := t.trim
  if t = [] then .zero
  else if t = "Infinity".toList ∨ t = "+Infinity".toList then .infinite false
  else if t = "-Infinity".toList then .infinite true
  else
    match radixDigits? t with
    | some (radix, digits) => radixNumber radix digits
    | none => decimalNumber t

/-! ## Values as texts -/

def objectText : Text := "[object Object]".toList

/-- `10 ^ 21` as a multiple of the smallest magnitude. -/
def plainLimit : Nat := Nat.pow 10 21 * Double.unitsPerOne

/-- A double without an exponent: all digits if it is whole and below `10 ^ 21`, else the shortest
digits that read back. -/
def realText (x : Double.Finite) : Text :=
  let units := Double.units x.rank
  let digits :=
    if units % Double.unitsPerOne = 0 ∧ units < plainLimit then
      Text.ofNat (units / Double.unitsPerOne)
    else (Double.shortest .up x.rank).positional
  if x.negative then '-' :: digits else digits

mutual

/-- Items of an array are joined by commas, null is empty. -/
def text : Value → Text
  | .null => []
  | .bool b => if b then "true".toList else "false".toList
  | .number (.whole i) => Text.ofInt i
  | .number (.real x) => realText x
  | .string t => t
  | .array items => Text.joinWith [','] (texts items)
  | .object _ => objectText

def texts : List Value → List Text
  | [] => []
  | v :: vs => text v :: texts vs

end

/-! ## Comparison -/

/-- The number of a value that may be absent. -/
def number : Option Value → Double
  | none => .nan
  | some .null => .zero
  | some (.bool b) => .ofBool b
  | some (.number n) => n.toDouble
  | some (.string t) => numberOfText t
  | some (.array items) => numberOfText (text (.array items))
  | some (.object _) => .nan

/-- Absent and null equal no text. -/
def equal (v : Option Value) (t : Text) : Bool :=
  match v with
  | none => false
  | some .null => false
  | some (.string s) => s == t
  | some (.number n) => n.toDouble.eq (numberOfText t)
  | some (.bool b) =>
    if t.trim = "true".toList then b
    else if t.trim = "false".toList then !b
    else (Double.ofBool b).eq (numberOfText t)
  | some (.array items) => text (.array items) == t
  | some (.object _) => t == objectText

end DotQuery.Loose
