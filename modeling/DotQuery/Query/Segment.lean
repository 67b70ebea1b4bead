import DotQuery.Predicate.Parser
import DotQuery.Text.Numeral

/-!
# Segments

A query is a source text and the segments between its dots. A filter keeps the text of its predicate
and, once that has been parsed, the outcome: `Predicate.chain` is the outcome in either state,
`Predicate.force` the state after it was asked for. Queries are compared by their texts, so
`uncached` forgets the outcomes.
-/

namespace DotQuery

instance decidableEqExcept {ε α : Type} [DecidableEq ε] [DecidableEq α] :
    DecidableEq (Except ε α)
  | .error e, .error f => decidable_of_iff (e = f) ⟨fun h => h ▸ rfl, fun h => Except.error.inj h⟩
  | .ok a, .ok b => decidable_of_iff (a = b) ⟨fun h => h ▸ rfl, fun h => Except.ok.inj h⟩
  | .error _, .ok _ => isFalse nofun
  | .ok _, .error _ => isFalse nofun

structure Predicate where
  source : Text
  parsed : Option (Except InvalidCondition Chain)
deriving DecidableEq

namespace Predicate

def ofText (source : Text) : Predicate := ⟨source, none⟩

def isParsed (p : Predicate) : Bool := p.parsed.isSome

def chain (p : Predicate) : Except InvalidCondition Chain := p.parsed.getD (Chain.parse p.source)

def force (p : Predicate) : Predicate := { p with parsed := some p.chain }

def uncached (p : Predicate) : Predicate := ofText p.source

end Predicate

inductive Segment where
  /-- A field of an object, or of each object in an array. -/
  | field (name : Text)
  /-- A place in an array. -/
  | index (place : Nat)
  /-- An object of the named fields only. -/
  | projection (names : List Text)
  /-- The items of an array, the value itself or one of its fields, that satisfy a predicate. -/
  | filter (name : Option Text) (predicate : Predicate)
deriving DecidableEq

namespace Segment

def kind : Segment → Text
  | field _ => "field".toList
  | index _ => "index".toList
  | projection _ => "multi-field".toList
  | filter .. => "filter".toList

def text : Segment → Text
  | field name => name
  | index place => Text.ofNat place
  | projection names => '\x7b' :: Text.joinWith [','] names ++ ['\x7d']
  | filter name p => name.getD [] ++ '[' :: p.source ++ [']']

/-- A filter of the value itself. -/
def isUnnamedFilter : Segment → Bool
  | filter none _ => true
  | _ => false

/-- Whether the predicate of a filter has been parsed; other segments have none. -/
def isParsed? : Segment → Option Bool
  | filter _ p => some p.isParsed
  | _ => none

def force : Segment → Segment
  | filter name p => filter name p.force
  | s => s

def uncached : Segment → Segment
  | filter name p => filter name p.uncached
  | s => s

end Segment

structure Query where
  source : Text
  segments : List Segment
deriving DecidableEq

namespace Query

def uncached (q : Query) : Query := ⟨q.source, q.segments.map Segment.uncached⟩

/-- The same segments, whether their predicates have been parsed or not. -/
def sameSegments (q r : Query) : Bool := decide (q.uncached.segments = r.uncached.segments)

/-- The same source and the same segments. -/
def same (q r : Query) : Bool := decide (q.uncached = r.uncached)

end Query

end DotQuery
