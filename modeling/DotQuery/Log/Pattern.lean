import DotQuery.Double.Literal
import DotQuery.Text.Alphanumeric

/-!
# Patterns

A log filter may ask for the value of a detail by a number or by a regular expression. `isPattern`
says whether a text is a well-formed regular expression without closing braces, which cannot occur
there: so nothing can be counted, and `{` stands for itself only in a set. `Symbol.ofText` resolves
the escapes, and `State.step` follows groups, flags and sets from symbol to symbol.
-/

namespace DotQuery.Log.Pattern

/-! ## Symbols -/

inductive Symbol where
  /-- A character as it is written. -/
  | char (c : Char)
  /-- An escaped character, by its code point. -/
  | literal (code : Nat)
  /-- A named set of characters. -/
  | characters
  /-- The start or the end of the text. -/
  | position
deriving DecidableEq

/-- The code point in hexadecimal digits. -/
def code? (digits : Text) : Option Nat := do
  let ds ← digits.mapM (digitValue? 16)
  let n := ds.foldl (fun n d => 16 * n + d) 0
  guard n.isValidChar
  return n

/-- What a character after a backslash stands for. Boundaries of words are not known. -/
def escape? (c : Char) : Option Symbol :=
  if "dswDSW".toList.contains c then some .characters
  else if c = 'A' ∨ c = 'z' then some .position
  else if c = 'a' then some (.literal 7)
  else if c = 't' then some (.literal 9)
  else if c = 'n' then some (.literal 10)
  else if c = 'v' then some (.literal 11)
  else if c = 'f' then some (.literal 12)
  else if c = 'r' then some (.literal 13)
  else if c.toNat < 0x80 && !isLetter c && !isDigit c && c != '<' && c != '>' then
    some (.literal c.toNat)
  else none

/-- The general categories with names of one letter. -/
def isCategory (c : Char) : Bool := "clmnpsz".toList.contains (lowerAscii c)

def Symbol.ofText : Text → Option (List Symbol)
  | [] => some []
  | '\\' :: 'x' :: a :: b :: t => do
    let n ← code? [a, b]
    return .literal n :: (← ofText t)
  | '\\' :: 'u' :: a :: b :: c :: d :: t => do
    let n ← code? [a, b, c, d]
    return .literal n :: (← ofText t)
  | '\\' :: 'U' :: a :: b :: c :: d :: e :: f :: g :: h :: t => do
    let n ← code? [a, b, c, d, e, f, g, h]
    return .literal n :: (← ofText t)
  | '\\' :: 'p' :: c :: t =>
    if isCategory c then (ofText t).map (.characters :: ·) else none
  | '\\' :: 'P' :: c :: t =>
    if isCategory c then (ofText t).map (.characters :: ·) else none
  | '\\' :: c :: t => do
    let x ← escape? c
    return x :: (← ofText t)
  | '\\' :: [] => none
  | c :: t => (ofText t).map (.char c :: ·)

/-! ## Groups, flags and sets -/

/-- The last item of a set, as far as a range can start with it. -/
inductive Item where
  | none
  | literal (code : Nat)
  | characters

/-- What is being read. -/
inductive Mode where
  /-- Outside of sets, after something that can be repeated or not. -/
  | plain (repeatable : Bool)
  /-- After an opening parenthesis. -/
  | opened
  /-- After an opening parenthesis and a question mark. -/
  | special
  /-- At the sign in front of the name of a group. -/
  | sign
  /-- In the name of a group, of which `read` has been read, the last character first. -/
  | name (read : Text)
  /-- In flags, after a minus or not; flags must follow a minus. -/
  | flags (seen : List Char) (negated dangling : Bool)
  /-- At the start of a set inside `depth` sets, where a caret and dashes may stand. -/
  | setStart (depth : Nat) (caret dashes : Bool)
  /-- In a set, after an item; `twin` is a sign that is an operator if it comes twice. -/
  | set (depth : Nat) (last : Item) (twin : Option Char)
  /-- In a set, after an item and a dash. -/
  | dash (depth : Nat) (last : Item)

/-- The open groups, the names of all groups, and what is being read. -/
structure State where
  depth : Nat
  names : List Text
  mode : Mode

namespace State

def start : State := ⟨0, [], .plain false⟩

def go (s : State) (mode : Mode) : Option State := some { s with mode }

def close (s : State) (repeatable : Bool) : Option State :=
  if s.depth = 0 then none else some { s with depth := s.depth - 1, mode := .plain repeatable }

def plainStep (s : State) (repeatable : Bool) : Symbol → Option State
  | .char '(' => some { s with depth := s.depth + 1, mode := .opened }
  | .char ')' => s.close true
  | .char '[' => s.go (.setStart 0 false false)
  | .char '|' => s.go (.plain false)
  | .char '\x7b' => none
  | .char c =>
    if c = '*' ∨ c = '+' ∨ c = '?' then if repeatable then s.go (.plain true) else none
    else s.go (.plain true)
  | _ => s.go (.plain true)

def flagStep (s : State) (seen : List Char) (negated dangling : Bool) : Symbol → Option State
  | .char ':' => if dangling then none else s.go (.plain false)
  | .char ')' => if dangling || seen.isEmpty then none else s.close false
  | .char '-' => if negated then none else s.go (.flags seen true true)
  | .char c =>
    if "imsUuxR".toList.contains c && !seen.contains c then s.go (.flags (c :: seen) negated false)
    else none
  | _ => none

def isNameChar (first : Bool) (c : Char) : Bool :=
  c == '_' || (isAlphanumeric c && !(first && isDigit c)) ||
    (!first && (c == '.' || c == '[' || c == ']'))

def nameStep (s : State) (read : Text) : Symbol → Option State
  | .char '>' =>
    if read = [] ∨ read ∈ s.names then none
    else some { s with names := read :: s.names, mode := .plain false }
  | .char c => if isNameChar read.isEmpty c then s.go (.name (c :: read)) else none
  | _ => none

def closeSet (s : State) (depth : Nat) : Option State :=
  match depth with
  | 0 => s.go (.plain true)
  | depth + 1 => s.go (.set depth .none none)

def setStep (s : State) (depth : Nat) (last : Item) (twin : Option Char) : Symbol → Option State
  | .char '[' => s.go (.setStart (depth + 1) false false)
  | .char ']' => s.closeSet depth
  | .char '-' =>
    match last with
    | .none => s.go (.set depth .none (if twin = some '-' then none else some '-'))
    | last => s.go (.dash depth last)
  | .char c =>
    if twin = some c then s.go (.set depth .none none)
    else s.go (.set depth (.literal c.toNat) (if c = '&' ∨ c = '~' then some c else none))
  | .literal n => s.go (.set depth (.literal n) none)
  | .characters => s.go (.set depth .characters none)
  | .position => none

/-- The end of a range may not come before its start. -/
def rangeStep (s : State) (depth : Nat) (last : Item) (code : Nat) : Option State :=
  match last with
  | .literal start => if start ≤ code then s.go (.set depth .none none) else none
  | _ => none

def dashStep (s : State) (depth : Nat) (last : Item) : Symbol → Option State
  | .char ']' => s.closeSet depth
  | .char '-' => s.go (.set depth .none none)
  | .char c => s.rangeStep depth last c.toNat
  | .literal n => s.rangeStep depth last n
  | _ => none

def step (s : State) (x : Symbol) : Option State :=
  match s.mode with
  | .plain repeatable => s.plainStep repeatable x
  | .opened => if x = .char '?' then s.go .special else s.plainStep false x
  | .special =>
    if x = .char 'P' then s.go .sign
    else if x = .char '<' then s.go (.name [])
    else s.flagStep [] false false x
  | .sign => if x = .char '<' then s.go (.name []) else none
  | .name read => s.nameStep read x
  | .flags seen negated dangling => s.flagStep seen negated dangling x
  | .setStart depth caret dashes =>
    if x = .char '^' ∧ !caret ∧ !dashes then s.go (.setStart depth true false)
    else if x = .char '-' then s.go (.setStart depth true true)
    else if x = .char ']' ∧ !dashes then s.go (.set depth .none none)
    else s.setStep depth .none none x
  | .set depth last twin => s.setStep depth last twin x
  | .dash depth last => s.dashStep depth last x

def isComplete (s : State) : Bool :=
  match s.mode with
  | .plain _ => s.depth == 0
  | _ => false

end State

def isPattern (t : Text) : Bool :=
  ((Symbol.ofText t).bind fun xs => xs.foldlM State.step State.start).any State.isComplete

/-! ## Values -/

/-- An unsigned number. -/
def isNumber (t : Text) : Bool :=
  ["inf", "infinity", "nan"].any (fun word => Text.eqIgnoreCase word.toList t) ||
    (Double.Literal.ofText? t).any fun l => l.whole ≠ [] ∨ l.fraction.getD [] ≠ []

/-- A number or a pattern; only a number after a plus is no pattern. -/
def isValue (t : Text) : Bool :=
  isPattern t ||
    match t with
    | '+' :: r => isNumber r
    | _ => false

end DotQuery.Log.Pattern
