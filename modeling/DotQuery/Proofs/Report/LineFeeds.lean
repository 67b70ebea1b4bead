import Mathlib.Data.List.Basic
import DotQuery.Proofs.Json.OneLine
import DotQuery.Proofs.Report.Documents

/-!
# Results on lines

A report on many documents that does not fail is the present results in order, each ended by a line
feed. A string is written as it is, so its own line feeds are written too; every other value is on
one line. So there is a line for each result exactly if no result is a string with a line feed.
-/

namespace DotQuery

namespace Value

/-- The text of a string, which is written as it is. -/
def rawText : Value → Text
  | string t => t
  | _ => []

theorem count_output (v : Value) : (v.output false).count '\n' = v.rawText.count '\n' := by
  cases v with
  | string t => rfl
  | _ => exact List.count_eq_zero.mpr (lineFeed_not_mem_compact _)

theorem lineFeed_not_mem_rawText_iff {vs : List Value} :
    '\n' ∉ vs.flatMap rawText ↔ ∀ t, .string t ∈ vs → '\n' ∉ t := by
  constructor
  · intro h t ht hfeed
    exact h (List.mem_flatMap.mpr ⟨_, ht, hfeed⟩)
  · intro h hmem
    obtain ⟨v, hv, hfeed⟩ := List.mem_flatMap.mp hmem
    cases v with
    | string t => exact h t hv hfeed
    | _ => cases hfeed

end Value

/-! ## Reports that do not fail -/

namespace Report

theorem firstFailure_eq_none_iff {task : Nat → Text} {k : Nat} {rs : List Report} :
    firstFailure task k rs = none ↔ ∀ r ∈ rs, r.failure = none := by
  induction rs generalizing k with
  | nil => simp [firstFailure]
  | cons r rs ih =>
    rw [List.forall_mem_cons]
    cases h : r.failure with
    | none => simp [firstFailure_cons_of_none h, ih]
    | some f => simp [firstFailure_cons_of_failure h]

theorem outUntilFailure_of_none {rs : List Report} (h : ∀ r ∈ rs, r.failure = none) :
    outUntilFailure rs = rs.flatMap out := by
  induction rs with
  | nil => rfl
  | cons r rs ih =>
    rw [List.forall_mem_cons] at h
    rw [outUntilFailure_cons_of_none h.1, ih h.2, List.flatMap_cons]

end Report

/-! ## Results -/

namespace Query

/-- The result of a query on a document, if there is one. -/
def result? (q : Query) (d : Value) : Option Value := (q.execute d).result.toOption.join

/-- The results that are present, in the order of their documents. -/
def results (q : Query) (documents : List Value) : List Value := documents.filterMap q.result?

theorem Faithful.result?_uncached {q : Query} (h : q.Faithful) (d : Value) :
    q.uncached.result? d = q.result? d := by
  rw [result?, h.result_uncached, result?]

/-- A value on a line of its own. -/
def line (v : Value) : Text := v.output false ++ ['\n']

theorem out_reportAlone (q : Query) (d : Value) :
    (q.reportAlone d).out = (q.result? d).toList.flatMap line := by
  unfold reportAlone result?
  cases h : (q.execute d).result with
  | error e => rw [Execution.report_of_error h]; rfl
  | ok v =>
    rw [(Execution.report_of_ok h false []).1]
    cases v with
    | none => rfl
    | some v => exact (List.append_nil _).symm

theorem Faithful.out_reportMany {q : Query} (hq : q.Faithful) {documents : List Value}
    (h : (q.reportMany documents).failure = none) :
    (q.reportMany documents).out = (q.results documents).flatMap line := by
  obtain ⟨hout, hfailure⟩ := reportFrom_eq hq 1 documents
  have hnone : ∀ r ∈ documents.map q.uncached.reportAlone, r.failure = none :=
    Report.firstFailure_eq_none_iff.mp (hfailure.symm.trans h)
  calc
    (q.reportMany documents).out
      = (documents.map q.uncached.reportAlone).flatMap Report.out :=
        hout.trans (Report.outUntilFailure_of_none hnone)
    _ = documents.flatMap fun d => (q.result? d).toList.flatMap line := by
        simp only [List.flatMap_map, out_reportAlone, hq.result?_uncached]
    _ = (q.results documents).flatMap line := by
        rw [results, List.filterMap_eq_flatMap_toList, List.flatMap_assoc]

/-! ## Lines -/

theorem count_lines (vs : List Value) :
    (vs.flatMap line).count '\n' = vs.length + (vs.flatMap Value.rawText).count '\n' := by
  induction vs with
  | nil => rfl
  | cons v vs ih =>
    have hline : (line v).count '\n' = v.rawText.count '\n' + 1 := by
      rw [line, List.count_append, Value.count_output]
      rfl
    rw [List.flatMap_cons, List.count_append, hline, ih, List.length_cons, List.flatMap_cons,
      List.count_append]
    omega

theorem splitOn_lines_iff {vs : List Value} :
    Text.splitOn '\n' (vs.flatMap line) = vs.map (Value.output false) ++ [[]] ↔
      '\n' ∉ vs.flatMap Value.rawText := by
  rw [← List.count_eq_zero]
  constructor
  · intro h
    have hlength := congrArg List.length h
    rw [Text.length_splitOn, count_lines, List.length_append, List.length_map,
      List.length_singleton] at hlength
    omega
  · intro h
    have hfree : ∀ p ∈ vs.map (Value.output false), '\n' ∉ p := by
      intro p hp
      obtain ⟨v, hv, rfl⟩ := List.mem_map.mp hp
      rw [← List.count_eq_zero, Value.count_output, List.count_eq_zero]
      exact fun hfeed => List.count_eq_zero.mp h (List.mem_flatMap.mpr ⟨v, hv, hfeed⟩)
    rw [← Text.splitOn_flatMap_concat hfree, List.flatMap_map]
    rfl

theorem lineFeeds_reportMany {q : Query} (hq : q.Faithful) {documents : List Value}
    (h : (q.reportMany documents).failure = none) :
    let out := (q.reportMany documents).out
    let results := q.results documents
    out.count '\n' = results.length + (results.flatMap Value.rawText).count '\n' ∧
      (out.count '\n' = results.length ↔ ∀ t, .string t ∈ results → '\n' ∉ t) ∧
      (out.splitOn '\n' = results.map (Value.output false) ++ [[]] ↔
        ∀ t, .string t ∈ results → '\n' ∉ t) := by
  intro out results
  have hout : out = results.flatMap line := hq.out_reportMany h
  have hcount : out.count '\n' = results.length + (results.flatMap Value.rawText).count '\n' := by
    rw [hout, count_lines]
  refine ⟨hcount, ?_, ?_⟩
  · rw [hcount, Nat.add_eq_left, List.count_eq_zero, Value.lineFeed_not_mem_rawText_iff]
  · rw [hout, splitOn_lines_iff, Value.lineFeed_not_mem_rawText_iff]

/-- A string of two lines, a document without the field, and the same string inside an array, where
its line feed is escaped: three line feeds for two results. -/
theorem lineFeeds_string_and_array :
    let q : Query := ⟨['s'], [.field ['s']]⟩
    let s : Value := .string "a\nb".toList
    let documents : List Value := [.object [(['s'], s)], .object [], .object [(['s'], .array [s])]]
    q.Faithful ∧ (q.reportMany documents).failure = none ∧
      q.results documents = [s, .array [s]] ∧ (q.reportMany documents).out.count '\n' = 3 := by
  intro q s documents
  have hq : q.Faithful := faithful_of_compile (t := ['s']) (by decide)
  have hnone : (q.reportMany documents).failure = none := rfl
  obtain ⟨hcount, -, -⟩ := lineFeeds_reportMany hq hnone
  exact ⟨hq, hnone, rfl, hcount.trans rfl⟩

/-- One result on two lines. -/
theorem two_lines_for_one_result :
    let q : Query := ⟨['s'], [.field ['s']]⟩
    let documents : List Value := [.object [(['s'], .string "a\nb".toList)]]
    Query.compile ['s'] = .ok q ∧ (q.reportMany documents).failure = none ∧
      (q.results documents).length = 1 ∧ (q.reportMany documents).out = "a\nb\n".toList ∧
      (q.reportMany documents).out.count '\n' = 2 := by
  refine ⟨by decide, rfl, rfl, ?_, ?_⟩
  · rfl
  · decide

end Query

end DotQuery
