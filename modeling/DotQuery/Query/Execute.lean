import DotQuery.Event
import DotQuery.Predicate.Eval
import DotQuery.Query.Compile

/-!
# Running queries

The segments of a query are applied to a document one after the other. A lookup may find nothing;
then the rest of the query is not looked at, and the answer is `none`. `Query.execute` gives the
result together with the query, whose filters remember the predicates parsed on the way, and the
events of the run.
-/

namespace DotQuery

inductive ExecutionError where
  | notAnArray (position place : Nat) (found : Kind)
  | badPredicate (position : Nat) (cause : InvalidCondition)
deriving DecidableEq

namespace ExecutionError

def position : ExecutionError → Nat
  | notAnArray position _ _ => position
  | badPredicate position _ => position

def message : ExecutionError → Text
  | notAnArray position place found =>
    "cannot index into non-array: segment ".toList ++ Text.ofNat position ++ " (index ".toList ++
      Text.ofNat place ++ ") applied to ".toList ++ found.name
  | badPredicate position cause =>
    "filter predicate at segment ".toList ++ Text.ofNat position ++ ": ".toList ++ cause.message

end ExecutionError

/-! ## Segments on values -/

namespace Value

/-- A field of an object, the field of each object in an array, and every other value itself. -/
def field (name : Text) : Value → Option Value
  | array items => some (array (items.filterMap (get? name)))
  | object fields => (object fields).get? name
  | v => some v

/-- The named fields that a value has. -/
def project (names : List Text) (v : Value) : Value :=
  object (names.filterMap fun name => (v.get? name).map fun w => (name, w))

def projection (names : List Text) : Value → Value
  | array items => array (items.map (project names))
  | object fields => project names (object fields)
  | v => v

/-- The items of an array that satisfy a predicate; `none` for a value that is no array. -/
def narrow? (chain : Chain) : Option Value → Option Value
  | some (array items) => some (array (items.filter chain.holds))
  | _ => none

/-- The items of the named field, or of the value itself, that satisfy a predicate. Where there is
no array to narrow, the value itself. -/
def narrow (name : Option Text) (chain : Chain) (v : Value) : Value :=
  let target := match name with | some name => v.get? name | none => some v
  (narrow? chain target).getD v

end Value

def Segment.apply (position : Nat) : Segment → Value → Except ExecutionError (Option Value)
  | field name, v => .ok (v.field name)
  | index place, .array items => .ok items[place]?
  | index place, v => .error (.notAnArray position place v.kind)
  | projection names, v => .ok (some (v.projection names))
  | filter name p, v =>
    match p.chain with
    | .error cause => .error (.badPredicate position cause)
    | .ok chain => .ok (some (v.narrow name chain))

/-- A predicate that parses is reported when it is parsed, not when it is used again. -/
def Segment.parseEvents (position : Nat) : Segment → List Event
  | filter _ p =>
    match p.parsed, p.chain with
    | none, .ok chain => [.predicateParsed position p.source chain.length]
    | _, _ => []
  | _ => []

def Segment.events (position : Nat) (s : Segment) (v : Value) : List Event :=
  .segmentApplied position s.kind v.kind :: s.parseEvents position

/-! ## Runs -/

/-- The result of a run, the segments after it, and its events. -/
structure Run where
  result : Except ExecutionError (Option Value)
  segments : List Segment
  events : List Event

/-- Apply segments, of which the first has the given position. -/
def runSegments (position : Nat) : List Segment → Option Value → Run
  | [], v => ⟨.ok v, [], []⟩
  | s :: ss, none => ⟨.ok none, s :: ss, []⟩
  | s :: ss, some v =>
    match s.apply position v with
    | .error e => ⟨.error e, s.force :: ss, s.events position v⟩
    | .ok next =>
      let r := runSegments (position + 1) ss next
      ⟨r.result, s.force :: r.segments, s.events position v ++ r.events⟩

/-- The result of a run, the query after it, and its events. -/
structure Execution where
  result : Except ExecutionError (Option Value)
  query : Query
  events : List Event

namespace Query

def execute (q : Query) (document : Value) : Execution :=
  let r := runSegments 0 q.segments (some document)
  ⟨r.result, { q with segments := r.segments }, r.events⟩

end Query

/-- Why a query text gives no answer for a document. -/
inductive QueryError where
  | compile (e : CompileError)
  | execution (e : ExecutionError)
deriving DecidableEq

/-- Compile a query and run it on a document. -/
def Value.query (document : Value) (t : Text) : Except QueryError (Option Value) :=
  match Query.compile t with
  | .error e => .error (.compile e)
  | .ok q =>
    match (q.execute document).result with
    | .error e => .error (.execution e)
    | .ok v => .ok v

end DotQuery
