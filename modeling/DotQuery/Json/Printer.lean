import DotQuery.Double.Notation
import DotQuery.Json.Value

/-!
# Writing JSON

`Value.compact` is the value on one line without blanks, `Value.pretty` has one item per line,
indented by two blanks for each open array or object. Only quotes, backslashes and characters below
the blank are escaped.
-/

namespace DotQuery

namespace Json

def escapeChar (c : Char) : Text :=
  match c with
  | '"' => ['\\', '"']
  | '\\' => ['\\', '\\']
  | '\x08' => ['\\', 'b']
  | '\x0c' => ['\\', 'f']
  | '\n' => ['\\', 'n']
  | '\r' => ['\\', 'r']
  | '\t' => ['\\', 't']
  | c =>
    if c.toNat < 0x20 then
      let digits := Text.ofNatHex c.toNat
      ['\\', 'u'] ++ List.replicate (4 - digits.length) '0' ++ digits
    else [c]

def stringText (t : Text) : Text := '"' :: t.flatMap escapeChar ++ ['"']

/-- Doubles from `0.00001` to below `10 ^ 16` are written without an exponent. -/
def realLayout : Double.Decimal.Layout := ⟨-5, 15⟩

def numberText : Number → Text
  | .whole i => Text.ofInt i
  | .real x =>
    let digits := realLayout.write (Double.shortest .toEven x.rank)
    if x.negative then '-' :: digits else digits

def newLine (depth : Nat) : Text := '\n' :: List.replicate (2 * depth) ' '

end Json

namespace Value

open Json

mutual

def compact : Value → Text
  | null => "null".toList
  | bool b => if b then "true".toList else "false".toList
  | number n => numberText n
  | string t => stringText t
  | array items => '[' :: Text.joinWith [','] (compactItems items) ++ [']']
  | object fields => '\x7b' :: Text.joinWith [','] (compactFields fields) ++ ['\x7d']

def compactItems : List Value → List Text
  | [] => []
  | v :: vs => v.compact :: compactItems vs

def compactFields : List (Text × Value) → List Text
  | [] => []
  | (name, v) :: fs => (stringText name ++ ':' :: v.compact) :: compactFields fs

end

mutual

/-- The value inside `depth` open arrays and objects. -/
def prettyAt (depth : Nat) : Value → Text
  | array [] => "[]".toList
  | object [] => ['\x7b', '\x7d']
  | array items =>
    '[' :: Text.joinWith [','] (prettyItems (depth + 1) items) ++ newLine depth ++ [']']
  | object fields =>
    '\x7b' :: Text.joinWith [','] (prettyFields (depth + 1) fields) ++ newLine depth ++ ['\x7d']
  | null => "null".toList
  | bool b => if b then "true".toList else "false".toList
  | number n => numberText n
  | string t => stringText t

/-- Each item after the line break and indentation in front of it. -/
def prettyItems (depth : Nat) : List Value → List Text
  | [] => []
  | v :: vs => (newLine depth ++ v.prettyAt depth) :: prettyItems depth vs

def prettyFields (depth : Nat) : List (Text × Value) → List Text
  | [] => []
  | (name, v) :: fs =>
    (newLine depth ++ stringText name ++ ':' :: ' ' :: v.prettyAt depth) :: prettyFields depth fs

end

def pretty (v : Value) : Text := v.prettyAt 0

end Value

end DotQuery
