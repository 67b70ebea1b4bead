import DotQuery.Files.Load

/-!
# Runs of loading computations

A computation that is followed by another runs first, and the other answers in the world that it
leaves.
-/

namespace DotQuery

variable {α β : Type}

theorem Load.run_bind (x : Load α) (f : α → Load β) (w : World) :
    (x >>= f).run w = (f (x.run w).1).run (x.run w).2 := by
  change (x.bind f).run w = _
  induction x generalizing w with
  | done a => rfl
  | readFile path next ih => exact ih _ w
  | readStdin next ih => exact ih _ _
  | findDirectory path next ih => exact ih _ w
  | makeDirectory path next ih =>
    simp only [bind, run]
    split
    · exact ih _ _
    · exact ih _ w
  | makeFile directory name next ih =>
    simp only [bind, run]
    split
    · exact ih _ _
    · exact ih _ w

namespace Loading

/-- The value that a computation gives in a world, or its failure. -/
def result (x : Loading α) (w : World) : Except Failure α := (x.run.run w).1

theorem result_bind_ofExcept {x : Loading α} {w : World} {a : α} (h : x.result w = .ok a)
    (f : α → Except Failure β) : (x >>= fun a => ofExcept (f a)).result w = f a := by
  unfold result at h
  change ((x.run >>= ExceptT.bindCont fun a => ofExcept (f a)).run w).1 = f a
  rw [Load.run_bind, h]
  rfl

end Loading

end DotQuery
