import DotQuery.Event
import DotQuery.Query.Compile
import DotQuery.Text.Quoted

/-!
# Explaining queries

One line for the source, one for each segment, and under a filter one for each condition of its
predicate, or one for what is wrong with it. A bad predicate does not end the explanation. Every
predicate has been parsed afterwards.
-/

namespace DotQuery

/-- The marks around emphasised text, all empty for plain output. -/
structure Palette where
  bold : Text
  green : Text
  cyan : Text
  dim : Text
  red : Text
  reset : Text

namespace Palette

def plain : Palette := ⟨[], [], [], [], [], []⟩

def colored : Palette where
  bold := "\x1b[1m".toList
  green := "\x1b[1;32m".toList
  cyan := "\x1b[36m".toList
  dim := "\x1b[2m".toList
  red := "\x1b[1;31m".toList
  reset := "\x1b[0m".toList

end Palette

namespace Condition

def description (c : Condition) : Text :=
  if c.operator = .any then "any element".toList else c.text

end Condition

namespace Explain

variable (p : Palette)

def indent : Text := List.replicate 6 ' '

def conditionLine (label : Text) (c : Condition) : Text :=
  indent ++ p.dim ++ label ++ p.reset ++ ' ' :: c.description ++ ['\n']

def chainLines (chain : Chain) : Text :=
  conditionLine p "where".toList chain.first ++
    chain.rest.flatMap fun (k, c) => conditionLine p (Text.padLeft 5 k.token) c

def errorLine (e : InvalidCondition) : Text :=
  indent ++ p.red ++ "error:".toList ++ p.reset ++ ' ' :: e.message ++ ['\n']

def predicateLines (pred : Predicate) : Text :=
  match pred.chain with
  | .ok chain => chainLines p chain
  | .error e => errorLine p e

/-- What a segment does, without its predicate. -/
def summary : Segment → Text
  | .field name => name.quoted
  | .index place => Text.ofNat place
  | .projection names => '\x7b' :: Text.joinWith ", ".toList names ++ ['\x7d']
  | .filter name pred =>
    (match name with | some name => name.quoted | none => "<current>".toList) ++
      " [".toList ++ pred.source ++ [']']

def segmentLine (position : Nat) (s : Segment) : Text :=
  "  ".toList ++ p.dim ++ Text.ofNat position ++ p.reset ++ ' ' :: p.cyan ++
    Text.padRight 11 s.kind ++ p.reset ++ ' ' :: summary s ++ ['\n']

def segmentLines (position : Nat) (s : Segment) : Text :=
  segmentLine p position s ++
    match s with
    | .filter _ pred => predicateLines p pred
    | _ => []

def segmentEvents (position : Nat) : Segment → List Event
  | .filter _ pred =>
    match pred.chain with
    | .ok _ => []
    | .error e => [.predicateRejected position e.message]
  | _ => []

def linesFrom (position : Nat) : List Segment → Text
  | [] => []
  | s :: ss => segmentLines p position s ++ linesFrom (position + 1) ss

def eventsFrom (position : Nat) : List Segment → List Event
  | [] => []
  | s :: ss => segmentEvents position s ++ eventsFrom (position + 1) ss

def sourceLine (source : Text) : Text :=
  p.bold ++ "Query:".toList ++ p.reset ++ ' ' :: p.green ++ source ++ p.reset ++ ['\n']

end Explain

/-- The explanation of a query, the query after it, and its events. -/
structure Explanation where
  text : Text
  query : Query
  events : List Event

open Explain in
def Query.explain (p : Palette) (q : Query) : Explanation where
  text := sourceLine p q.source ++ linesFrom p 0 q.segments
  query := { q with segments := q.segments.map Segment.force }
  events := eventsFrom 0 q.segments

end DotQuery
