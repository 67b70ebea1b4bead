import DotQuery.Json.Number

/-!
# JSON tokens

`Token.ofText?` cuts a JSON text into its tokens, one character at a time: `Mode.step` says what a
character adds to what has been read so far. Strings are unescaped here and words (literals and
numbers) are read as values.
-/

namespace DotQuery.Json

inductive Token where
  | openArray
  | closeArray
  | openObject
  | closeObject
  | comma
  | colon
  | value (v : Value)

/-! ## Words -/

def word? (t : Text) : Option Value :=
  if t = "null".toList then some .null
  else if t = "true".toList then some (.bool true)
  else if t = "false".toList then some (.bool false)
  else (number? t).map .number

def isWordChar (c : Char) : Bool := isLetter c || isDigit c || c == '+' || c == '-' || c == '.'

/-! ## Strings -/

/-- What the letter after a backslash stands for. -/
def escape? : Char → Option Char
  | '"' => some '"'
  | '\\' => some '\\'
  | '/' => some '/'
  | 'b' => some '\x08'
  | 'f' => some '\x0c'
  | 'n' => some '\n'
  | 'r' => some '\r'
  | 't' => some '\t'
  | _ => none

/-- The character of a pair of surrogate units. -/
def ofSurrogates (high low : Nat) : Char :=
  Char.ofNat (0x10000 + (high - 0xD800) * 0x400 + (low - 0xDC00))

/-! ## Characters -/

/-- What is being read. Characters read so far are in reverse; `high` is a first surrogate whose
second one must follow. -/
inductive Mode where
  | between
  | word (read : Text)
  | string (read : Text)
  | highEnd (read : Text) (high : Nat)
  | escape (read : Text) (high : Option Nat)
  | code (read : Text) (high : Option Nat) (digits : List Nat)

namespace Mode

def startToken (c : Char) : Option (List Token × Mode) :=
  match c with
  | '[' => some ([.openArray], between)
  | ']' => some ([.closeArray], between)
  | '\x7b' => some ([.openObject], between)
  | '\x7d' => some ([.closeObject], between)
  | ',' => some ([.comma], between)
  | ':' => some ([.colon], between)
  | '"' => some ([], string [])
  | ' ' | '\t' | '\n' | '\r' => some ([], between)
  | c => if isWordChar c then some ([], word [c]) else none

/-- Add the unit of four hexadecimal digits to a string: surrogates come in pairs. -/
def addUnit (read : Text) (high : Option Nat) (unit : Nat) : Option Mode :=
  match high with
  | some h =>
    if 0xDC00 ≤ unit ∧ unit ≤ 0xDFFF then some (string (ofSurrogates h unit :: read)) else none
  | none =>
    if 0xD800 ≤ unit ∧ unit ≤ 0xDBFF then some (highEnd read unit)
    else if 0xDC00 ≤ unit ∧ unit ≤ 0xDFFF then none
    else some (string (Char.ofNat unit :: read))

def step (m : Mode) (c : Char) : Option (List Token × Mode) :=
  match m with
  | between => startToken c
  | word read =>
    if isWordChar c then some ([], word (c :: read))
    else do
      let v ← word? read.reverse
      let (tokens, m) ← startToken c
      return (.value v :: tokens, m)
  | string read =>
    if c = '"' then some ([.value (.string read.reverse)], between)
    else if c = '\\' then some ([], escape read none)
    else if c.toNat < 0x20 then none
    else some ([], string (c :: read))
  | highEnd read high => if c = '\\' then some ([], escape read (some high)) else none
  | escape read high =>
    if c = 'u' then some ([], code read high [])
    else if high.isSome then none
    else (escape? c).map fun e => ([], string (e :: read))
  | code read high digits => do
    let d ← digitValue? 16 c
    if digits.length < 3 then return ([], code read high (digits ++ [d]))
    let m ← addUnit read high ((digits ++ [d]).foldl (fun n d => 16 * n + d) 0)
    return ([], m)

/-- The tokens that are complete only at the end of the text. -/
def finish : Mode → Option (List Token)
  | between => some []
  | word read => (word? read.reverse).map fun v => [.value v]
  | _ => none

end Mode

def Token.ofTextFrom (m : Mode) : Text → Option (List Token)
  | [] => m.finish
  | c :: t => do
    let (tokens, m) ← m.step c
    return tokens ++ (← ofTextFrom m t)

def Token.ofText? (t : Text) : Option (List Token) := Token.ofTextFrom .between t

end DotQuery.Json
