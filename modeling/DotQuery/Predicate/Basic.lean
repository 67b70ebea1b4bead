import DotQuery.Text.Basic

/-!
# Predicates

A `Chain` is one or more conditions joined by connectives; `Condition.text` and `Chain.text` print
them with single blanks.
-/

namespace DotQuery

inductive Operator where
  | atLeast
  | atMost
  | equal
  | greater
  | less
  | unequal
  | any
deriving DecidableEq

namespace Operator

def token : Operator → Text
  | atLeast => ['>', '=']
  | atMost => ['<', '=']
  | equal => ['=', '=']
  | greater => ['>']
  | less => ['<']
  | unequal => ['!', '=']
  | any => ['*']

/-- The order in which a condition is searched for an operator; `>=` comes before `>`. -/
def byPriority : List Operator := [atLeast, atMost, equal, greater, less, unequal, any]

end Operator

inductive Connective where
  | and
  | or
deriving DecidableEq

namespace Connective

def token : Connective → Text
  | and => ['&', '&']
  | or => ['|', '|']

def apply : Connective → Bool → Bool → Bool
  | and, a, b => a && b
  | or, a, b => a || b

end Connective

/-- A comparison of the field `key` with a text. The wildcard has neither. -/
structure Condition where
  key : Text
  operator : Operator
  value : Text
deriving DecidableEq

namespace Condition

def wildcard : Condition := ⟨[], .any, []⟩

def text (c : Condition) : Text :=
  if c.operator = .any then ['*'] else c.key ++ ' ' :: c.operator.token ++ ' ' :: c.value

end Condition

/-- The text of a condition without any operator. -/
structure InvalidCondition where
  condition : Text
deriving DecidableEq

def InvalidCondition.message (e : InvalidCondition) : Text :=
  "invalid condition: '".toList ++ e.condition ++ "'".toList

/-- Conditions joined by connectives; there is at least one. -/
structure Chain where
  first : Condition
  rest : List (Connective × Condition)
deriving DecidableEq

namespace Chain

def single (c : Condition) : Chain := ⟨c, []⟩

def push (chain : Chain) (connective : Connective) (c : Condition) : Chain :=
  { chain with rest := chain.rest ++ [(connective, c)] }

def conditions (chain : Chain) : List Condition := chain.first :: chain.rest.map Prod.snd

def connectives (chain : Chain) : List Connective := chain.rest.map Prod.fst

def length (chain : Chain) : Nat := chain.rest.length + 1

def text (chain : Chain) : Text :=
  chain.first.text ++ chain.rest.flatMap fun (k, c) => ' ' :: k.token ++ ' ' :: c.text

end Chain

end DotQuery
