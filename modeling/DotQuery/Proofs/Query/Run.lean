import DotQuery.Query.Execute

/-!
# Runs as folds

The result of a run is a fold over the segments that stops at the first error and at the first
absent value (`result_cons`). A run over two lists of segments is a run over the first and then,
from where that led, over the second (`result_append`). `shift` moves the position of an error, as
starting at a later position does (`result_shift`).
-/

namespace DotQuery

/-! ## Positions -/

/-- The error, a number of positions further on. -/
def ExecutionError.shift (n : Nat) : ExecutionError → ExecutionError
  | notAnArray position place found => notAnArray (position + n) place found
  | badPredicate position cause => badPredicate (position + n) cause

def QueryError.shift (n : Nat) : QueryError → QueryError
  | compile e => compile e
  | execution e => execution (e.shift n)

theorem Segment.apply_shift (k n : Nat) (s : Segment) (v : Value) :
    s.apply (k + n) v = (s.apply k v).mapError (·.shift n) := by
  cases s with
  | field name => rfl
  | projection names => rfl
  | index place => cases v <;> rfl
  | filter name p =>
    simp only [apply]
    cases p.chain <;> rfl

/-! ## Results -/

theorem Run.result_none (n : Nat) (ss : List Segment) :
    (runSegments n ss none).result = .ok none := by
  cases ss <;> rfl

theorem Run.result_cons (n : Nat) (s : Segment) (ss : List Segment) (v : Value) :
    (runSegments n (s :: ss) (some v)).result =
      (s.apply n v).bind fun w => (runSegments (n + 1) ss w).result := by
  simp only [runSegments]
  cases s.apply n v <;> rfl

theorem Run.result_append (n : Nat) (ss ts : List Segment) (v : Option Value) :
    (runSegments n (ss ++ ts) v).result =
      (runSegments n ss v).result.bind fun w => (runSegments (n + ss.length) ts w).result := by
  induction ss generalizing n v with
  | nil => rfl
  | cons s ss ih =>
    cases v with
    | none =>
      rw [Run.result_none, Run.result_none]
      exact (Run.result_none _ ts).symm
    | some v =>
      rw [List.cons_append, Run.result_cons, Run.result_cons]
      cases s.apply n v with
      | error e => rfl
      | ok w =>
        have hpos : n + (s :: ss).length = n + 1 + ss.length := by
          rw [List.length_cons]
          omega
        rw [hpos]
        exact ih (n + 1) w

theorem Run.result_shift (k n : Nat) (ss : List Segment) (v : Option Value) :
    (runSegments (k + n) ss v).result = (runSegments k ss v).result.mapError (·.shift n) := by
  induction ss generalizing k v with
  | nil => rfl
  | cons s ss ih =>
    cases v with
    | none =>
      rw [Run.result_none, Run.result_none]
      rfl
    | some v =>
      rw [Run.result_cons, Run.result_cons, Segment.apply_shift]
      cases s.apply k v with
      | error e => rfl
      | ok w =>
        have hpos : k + n + 1 = k + 1 + n := by omega
        rw [hpos]
        exact ih (k + 1) w

/-! ## Query texts -/

theorem Value.query_of_compile {t : Text} {q : Query} (h : Query.compile t = .ok q) (d : Value) :
    d.query t = (q.execute d).result.mapError .execution := by
  simp only [query, h]
  cases (q.execute d).result <;> rfl

theorem QueryError.mapError_execution_shift {α : Type} (n : Nat) (x : Except ExecutionError α) :
    (x.mapError (·.shift n)).mapError QueryError.execution =
      (x.mapError QueryError.execution).mapError (·.shift n) := by
  cases x <;> rfl

/-- A run of a query from a later position is the answer of its text, shifted. -/
theorem Value.query_shift {u : Text} {r : Query} (h : Query.compile u = .ok r) (n : Nat)
    (v : Value) :
    (runSegments n r.segments (some v)).result.mapError .execution =
      (v.query u).mapError (·.shift n) := by
  have hshift := Run.result_shift 0 n r.segments (some v)
  rw [Nat.zero_add] at hshift
  rw [hshift, QueryError.mapError_execution_shift, query_of_compile h]
  rfl

end DotQuery
