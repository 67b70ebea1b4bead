import DotQuery.Proofs.Query.Cache
import DotQuery.Report

/-!
# Reports on many documents

A query that runs on one document after the other writes what it would write for each of them as
compiled, up to the first that fails. The failure is the one of that document, with its number.
-/

namespace DotQuery

namespace Report

theorem andThen_of_failure {r s : Report} {f : Failure} (h : r.failure = some f) :
    r.andThen s = r := by
  simp only [andThen, h, Option.isSome_some, if_true]

theorem andThen_of_none {r : Report} (h : r.failure = none) (s : Report) :
    r.andThen s = ⟨r.out ++ s.out, r.events ++ s.events, s.failure⟩ := by
  simp only [andThen, h, Option.isSome_none, Bool.false_eq_true, if_false]

/-- What is written by reports up to the first that ends in a failure. -/
def outUntilFailure (rs : List Report) : Text :=
  (rs.takeWhile fun r => r.failure.isNone).flatMap Report.out

/-- The first failure of reports, as part of the task of its place; places are counted from `k`. -/
def firstFailure (task : Nat → Text) (k : Nat) (rs : List Report) : Option Failure :=
  (rs.zipIdx k).findSome? fun (r, n) => r.failure.map (Failure.within (task n))

theorem outUntilFailure_cons_of_failure {r : Report} {f : Failure} (h : r.failure = some f)
    (rs : List Report) : outUntilFailure (r :: rs) = [] := by
  simp [outUntilFailure, h]

theorem outUntilFailure_cons_of_none {r : Report} (h : r.failure = none) (rs : List Report) :
    outUntilFailure (r :: rs) = r.out ++ outUntilFailure rs := by
  simp [outUntilFailure, h]

theorem firstFailure_cons_of_failure {r : Report} {f : Failure} (h : r.failure = some f)
    (task : Nat → Text) (k : Nat) (rs : List Report) :
    firstFailure task k (r :: rs) = some (f.within (task k)) := by
  simp [firstFailure, List.zipIdx_cons, h]

theorem firstFailure_cons_of_none {r : Report} (h : r.failure = none) (task : Nat → Text) (k : Nat)
    (rs : List Report) : firstFailure task k (r :: rs) = firstFailure task (k + 1) rs := by
  simp [firstFailure, List.zipIdx_cons, h]

end Report

/-! ## One document -/

namespace Execution

variable {x y : Execution}

theorem report_of_ok {v : Option Value} (h : x.result = .ok v) (pretty : Bool)
    (context : List Text) :
    (x.report pretty context).out = (reportResult pretty v).out ∧
      (x.report pretty context).failure = none := by
  simp only [report, h]
  rw [Report.andThen_of_none rfl]
  cases v with
  | none => exact ⟨rfl, rfl⟩
  | some v => exact ⟨rfl, rfl⟩

theorem report_of_error {e : ExecutionError} (h : x.result = .error e) (pretty : Bool)
    (context : List Text) :
    x.report pretty context = ⟨[], x.events, some ⟨context, .execution e⟩⟩ := by
  simp only [report, h]

/-- A failed run writes nothing. -/
theorem out_report_of_failure {pretty : Bool} {context : List Text} {f : Failure}
    (h : (x.report pretty context).failure = some f) : (x.report pretty context).out = [] := by
  cases hx : x.result with
  | error e => rw [report_of_error hx]
  | ok v =>
    rw [(report_of_ok hx pretty context).2] at h
    cases h

/-- Runs with one result write the same, and a task that one is part of is named in its failure. -/
theorem report_within (h : x.result = y.result) (pretty : Bool) (task : Text)
    (context : List Text) :
    (x.report pretty (task :: context)).out = (y.report pretty context).out ∧
      (x.report pretty (task :: context)).failure =
        (y.report pretty context).failure.map (Failure.within task) := by
  cases hy : y.result with
  | error e =>
    rw [report_of_error (h.trans hy), report_of_error hy]
    exact ⟨rfl, rfl⟩
  | ok v =>
    obtain ⟨hxout, hxfailure⟩ := report_of_ok (h.trans hy) pretty (task :: context)
    obtain ⟨hyout, hyfailure⟩ := report_of_ok hy pretty context
    rw [hxout, hxfailure, hyout, hyfailure]
    exact ⟨rfl, rfl⟩

end Execution

/-! ## Many documents -/

namespace Query

/-- The task of a document with a number. -/
def documentTask (n : Nat) : Text := "document ".toList ++ Text.ofNat n

/-- The report of a query on a document on its own, in one line. -/
def reportAlone (q : Query) (v : Value) : Report := (q.execute v).report false []

theorem reportFrom_eq {q : Query} (h : q.Faithful) (k : Nat) (vs : List Value) :
    (q.reportFrom k vs).out = Report.outUntilFailure (vs.map q.uncached.reportAlone) ∧
      (q.reportFrom k vs).failure =
        Report.firstFailure documentTask k (vs.map q.uncached.reportAlone) := by
  induction vs generalizing q k with
  | nil => exact ⟨rfl, rfl⟩
  | cons v vs ih =>
    have hgrows := grows_execute q v
    obtain ⟨hrestout, hrestfailure⟩ := ih (hgrows.faithful h) (k + 1)
    rw [hgrows.uncached] at hrestout hrestfailure
    obtain ⟨hout, hfailure⟩ :=
      Execution.report_within (h.result_uncached v).symm false (documentTask k) []
    change _ = (q.uncached.reportAlone v).out at hout
    change _ = (q.uncached.reportAlone v).failure.map _ at hfailure
    change (((q.execute v).report false [documentTask k]).andThen _).out = _ ∧
      (((q.execute v).report false [documentTask k]).andThen _).failure = _
    rw [List.map_cons]
    cases halone : (q.uncached.reportAlone v).failure with
    | none =>
      rw [halone] at hfailure
      rw [Report.andThen_of_none hfailure, Report.outUntilFailure_cons_of_none halone,
        Report.firstFailure_cons_of_none halone]
      refine ⟨?_, hrestfailure⟩
      dsimp only
      rw [hout, hrestout]
    | some f =>
      rw [halone] at hfailure
      rw [Report.andThen_of_failure hfailure, Report.outUntilFailure_cons_of_failure halone,
        Report.firstFailure_cons_of_failure halone]
      exact ⟨Execution.out_report_of_failure hfailure, hfailure⟩

end Query

end DotQuery
