import DotQuery.Query.Segment

/-!
# Compiling queries

A query is cut at the dots outside brackets and each piece is read on its own, so only one thing can
be wrong: a filter without a name after the first segment, where it would have nothing to narrow.
-/

namespace DotQuery

/-! ## Pieces -/

/-- The depth of brackets after a character; a closing bracket without an open one is text. -/
def depthAfter (depth : Nat) (c : Char) : Nat :=
  if c = '[' then depth + 1 else if c = ']' then depth - 1 else depth

def scanDepth (depth : Nat) (t : Text) : Nat := t.foldl depthAfter depth

/-- The pieces between the dots at depth 0. -/
def piecesFrom (depth : Nat) : Text → List Text
  | [] => [[]]
  | c :: t =>
    if c = '.' ∧ depth = 0 then [] :: piecesFrom 0 t
    else Text.consHead c (piecesFrom (depthAfter depth c) t)

/-- The pieces of a query. If a bracket is left open, all dots separate. -/
def pieces (t : Text) : List Text :=
  if scanDepth 0 t = 0 then piecesFrom 0 t else t.splitOn '.'

/-! ## Segments -/

/-- Each text once, at its first occurrence. -/
def firstOccurrences : List Text → List Text
  | [] => []
  | t :: ts => t :: (firstOccurrences ts).filter (· ≠ t)

/-- The names between braces, with at least one comma and no further closing brace. -/
def projectionNames? : Text → Option (List Text)
  | '\x7b' :: t =>
    match t.getLast?, t.dropLast with
    | some '\x7d', inner =>
      if '\x7d' ∈ inner ∨ ',' ∉ inner then none
      else some (firstOccurrences ((Text.splitOn ',' inner).map Text.trim))
    | _, _ => none
  | _ => none

/-- The text up to the last closing bracket of a line. -/
def bracketed? (t : Text) : Option Text :=
  (Text.cutAtLast ']' (t.takeWhile (· ≠ '\n'))).map Prod.fst

/-- The word right in front of the first bracket that is closed on its line, and the text between
the brackets. `run` is the word that ends here, in reverse. -/
def filterPartsFrom (run : Text) : Text → Option (Text × Text)
  | [] => none
  | c :: t =>
    if c = '[' then
      match bracketed? t with
      | some condition => some (run.reverse, condition)
      | none => filterPartsFrom [] t
    else filterPartsFrom (if isWord c then c :: run else []) t

def filterParts? (t : Text) : Option (Text × Text) := filterPartsFrom [] t

/-- The largest index; a larger number means it. -/
def maxIndex : Nat := Text.wordLimit - 1

def Segment.ofText (t : Text) : Segment :=
  match projectionNames? t with
  | some names => projection names
  | none =>
    match filterParts? t with
    | some (name, condition) => filter (if name = [] then none else some name) (.ofText condition)
    | none => if t.allDigits then index (min t.natural maxIndex) else field t

/-! ## Queries -/

inductive CompileError where
  | filterWithoutField (query : Text) (position : Nat)
deriving DecidableEq

namespace CompileError

def position : CompileError → Nat
  | filterWithoutField _ position => position

def message : CompileError → Text
  | filterWithoutField query position =>
    "filter without field in query '".toList ++ query ++ "' (segment ".toList ++
      Text.ofNat position ++ [')']

end CompileError

/-- The position of the first filter without a name after the first segment. -/
def unnamedFilterAfterFirst? (segments : List Segment) : Option Nat :=
  ((segments.drop 1).findIdx? Segment.isUnnamedFilter).map (· + 1)

/-- The segments that a text denotes, whether they make a query or not. -/
def segmentsOf (t : Text) : List Segment := (pieces t).map Segment.ofText

def Query.compile (t : Text) : Except CompileError Query :=
  match unnamedFilterAfterFirst? (segmentsOf t) with
  | some position => .error (.filterWithoutField t position)
  | none => .ok ⟨t, segmentsOf t⟩

end DotQuery
