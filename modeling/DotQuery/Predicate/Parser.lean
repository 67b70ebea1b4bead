import DotQuery.Predicate.Basic
import DotQuery.Text.Class

/-!
# Parsing predicates

`splitTerms` cuts a text at its connectives from left to right, `Condition.parse` cuts a term at its
operator. The first term without an operator is the error.
-/

namespace DotQuery

/-- The first operator, by priority, that occurs in a term, and the texts around it. -/
def Operator.cut? (t : Text) : Option (Operator × Text × Text) :=
  byPriority.findSome? fun op => (Text.cutAtFirst op.token t).map fun around => (op, around)

def Condition.parse (t : Text) : Except InvalidCondition Condition :=
  match Operator.cut? t with
  | none => .error ⟨t.trim⟩
  | some (.any, _) => .ok wildcard
  | some (op, key, value) => .ok ⟨key.trim, op, value.trim⟩

/-- The term before the first connective, and each connective with the term after it. -/
def splitTerms : Text → Text × List (Connective × Text)
  | [] => ([], [])
  | '&' :: '&' :: t =>
    let r := splitTerms t
    ([], (.and, r.1) :: r.2)
  | '|' :: '|' :: t =>
    let r := splitTerms t
    ([], (.or, r.1) :: r.2)
  | c :: t =>
    let r := splitTerms t
    (c :: r.1, r.2)

/-- The conditions of the terms after the first. -/
def parseTerms :
    List (Connective × Text) → Except InvalidCondition (List (Connective × Condition))
  | [] => .ok []
  | (k, t) :: ts => do
    let c ← Condition.parse t
    let cs ← parseTerms ts
    return (k, c) :: cs

def Chain.parse (t : Text) : Except InvalidCondition Chain := do
  let (head, terms) := splitTerms t
  let first ← Condition.parse head
  let rest ← parseTerms terms
  return ⟨first, rest⟩

end DotQuery
