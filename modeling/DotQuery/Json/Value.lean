import DotQuery.Double.Rounding
import DotQuery.Text.Fields

/-!
# JSON values

A number is a whole number, kept exactly, or a finite double. The fields of an object are kept in
their order.
-/

namespace DotQuery

inductive Number where
  | whole (i : Int)
  | real (x : Double.Finite)
deriving DecidableEq

def Number.toDouble : Number → Double
  | whole i => .ofInt i
  | real x => .finite x

inductive Value where
  | null
  | bool (b : Bool)
  | number (n : Number)
  | string (t : Text)
  | array (items : List Value)
  | object (fields : List (Text × Value))

/-- The six sorts of JSON values. -/
inductive Kind where
  | null
  | boolean
  | number
  | string
  | array
  | object
deriving DecidableEq

def Kind.name : Kind → Text
  | null => "null".toList
  | boolean => "boolean".toList
  | number => "number".toList
  | string => "string".toList
  | array => "array".toList
  | object => "object".toList

namespace Value

instance : Inhabited Value := ⟨null⟩

def kind : Value → Kind
  | null => .null
  | bool _ => .boolean
  | number _ => .number
  | string _ => .string
  | array _ => .array
  | object _ => .object

/-- The field of an object; all other values have no fields. -/
def get? (name : Text) : Value → Option Value
  | object fields => fields.lookup name
  | _ => none

end Value

end DotQuery
