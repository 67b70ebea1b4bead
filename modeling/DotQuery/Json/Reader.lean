import DotQuery.Json.Token

/-!
# Reading JSON

`Value.ofJson?` reads a text that holds one JSON value. The tokens run through a stack of the arrays
and objects that are still open, at most `maxDepth` of them. A repeated field keeps its first place
and its last value.
-/

namespace DotQuery

namespace Json

/-- An open array with the items read so far, the last one first, or an open object with its fields
and the name that waits for a value. -/
inductive Frame where
  | array (items : List Value)
  | object (fields : Fields Value) (name : Text)

/-- What may come next. -/
inductive Expected where
  | value
  | itemOrEnd
  | nameOrEnd
  | name
  | colon
  | separator
  | nothing (result : Value)

structure State where
  stack : List Frame
  expected : Expected

def maxDepth : Nat := 127

namespace State

def start : State := ⟨[], .value⟩

/-- A value is complete: it goes into the innermost open array or object. -/
def complete (v : Value) : List Frame → State
  | [] => ⟨[], .nothing v⟩
  | .array items :: rest => ⟨.array (v :: items) :: rest, .separator⟩
  | .object fields name :: rest => ⟨.object (fields.put name v) name :: rest, .separator⟩

def close (array : Bool) : List Frame → Option State
  | .array items :: rest => if array then some (complete (.array items.reverse) rest) else none
  | .object fields _ :: rest => if array then none else some (complete (.object fields) rest)
  | [] => none

def beginValue (stack : List Frame) : Token → Option State
  | .value v => some (complete v stack)
  | .openArray => if stack.length < maxDepth then some ⟨.array [] :: stack, .itemOrEnd⟩ else none
  | .openObject =>
    if stack.length < maxDepth then some ⟨.object [] [] :: stack, .nameOrEnd⟩ else none
  | _ => none

def beginField (stack : List Frame) : Token → Option State
  | .value (.string name) =>
    match stack with
    | .object fields _ :: rest => some ⟨.object fields name :: rest, .colon⟩
    | _ => none
  | _ => none

def step (s : State) (token : Token) : Option State :=
  match s.expected, token with
  | .value, t => beginValue s.stack t
  | .itemOrEnd, .closeArray => close true s.stack
  | .itemOrEnd, t => beginValue s.stack t
  | .nameOrEnd, .closeObject => close false s.stack
  | .nameOrEnd, t => beginField s.stack t
  | .name, t => beginField s.stack t
  | .colon, .colon => some ⟨s.stack, .value⟩
  | .separator, .closeArray => close true s.stack
  | .separator, .closeObject => close false s.stack
  | .separator, .comma =>
    match s.stack with
    | .array _ :: _ => some ⟨s.stack, .value⟩
    | .object _ _ :: _ => some ⟨s.stack, .name⟩
    | [] => none
  | _, _ => none

def run : State → List Token → Option Value
  | ⟨_, .nothing v⟩, [] => some v
  | _, [] => none
  | s, t :: ts => (s.step t).bind fun s => run s ts

end State

end Json

/-- The value that a JSON text denotes. -/
def Value.ofJson? (t : Text) : Option Value := do
  Json.State.start.run (← Json.Token.ofText? t)

end DotQuery
