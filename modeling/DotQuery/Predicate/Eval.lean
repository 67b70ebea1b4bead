import DotQuery.Loose
import DotQuery.Predicate.Basic

/-!
# Evaluating predicates

A condition looks its key up in a candidate and compares what it finds loosely. A chain is a fold
from the left, where neither connective binds tighter than the other.
-/

namespace DotQuery

def Condition.holds (c : Condition) (candidate : Value) : Bool :=
  let found := candidate.get? c.key
  let left := Loose.number found
  let right := Loose.numberOfText c.value
  match c.operator with
  | .any => true
  | .equal => Loose.equal found c.value
  | .unequal => !Loose.equal found c.value
  | .atLeast => right.le left
  | .atMost => left.le right
  | .greater => right.lt left
  | .less => left.lt right

def Chain.holds (chain : Chain) (candidate : Value) : Bool :=
  chain.rest.foldl (fun acc (k, c) => k.apply acc (c.holds candidate)) (chain.first.holds candidate)

end DotQuery
