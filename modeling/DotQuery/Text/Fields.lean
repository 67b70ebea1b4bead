import DotQuery.Text.Basic

/-!
# Fields

Named values in order, as in a JSON object or a configuration table. `List.lookup` reads a field;
`put` keeps the place of a name that is already there.
-/

namespace DotQuery

abbrev Fields (α : Type) := List (Text × α)

namespace Fields

variable {α : Type}

/-- Set a field: at its place if the name is there, else at the end. -/
def put (name : Text) (a : α) : Fields α → Fields α
  | [] => [(name, a)]
  | (n, b) :: fs => if n = name then (n, a) :: fs else (n, b) :: put name a fs

def names (fs : Fields α) : List Text := fs.map Prod.fst

theorem lookup_put_self (name : Text) (a : α) (fs : Fields α) :
    (put name a fs).lookup name = some a := by
  induction fs with
  | nil => simp [put]
  | cons f fs ih =>
    obtain ⟨n, b⟩ := f
    unfold put
    split
    · next h =>
      subst h
      simp
    · next h => rw [List.lookup_cons, beq_false_of_ne (Ne.symm h), ih]

theorem lookup_put_of_ne {name n : Text} (h : n ≠ name) (a : α) (fs : Fields α) :
    (put name a fs).lookup n = fs.lookup n := by
  induction fs with
  | nil => simp [put, h]
  | cons f fs ih =>
    obtain ⟨m, b⟩ := f
    unfold put
    split
    · next hm =>
      subst hm
      simp only [List.lookup_cons, beq_false_of_ne h]
    · rw [List.lookup_cons, List.lookup_cons, ih]

end Fields

end DotQuery
