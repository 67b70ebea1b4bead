import DotQuery.CommandLine.Run
import DotQuery.Proofs.Document.Lines
import DotQuery.Proofs.Files.Load
import DotQuery.Proofs.Report.Documents

/-!
# Queries on documents in lines

A query on documents in lines agrees with the query on each line on its own. Where a line that is
not blank is no document, nothing is written, and the failure has the number of the first such line,
counted with the blank ones. Otherwise the output is that of the lines one by one, up to the first
that fails, and its failure has the number of its document, counted without the blank ones.
-/

namespace DotQuery.CommandLine

theorem run_reportOf {α : Type} (task : Loading α) (f : α → Report) (w : World) :
    ((reportOf task f).run w).1 =
      match task.result w with
      | .ok a => f a
      | .error e => .ofFailure e := by
  unfold reportOf Loading.result
  rw [Load.run_bind]
  cases (task.run.run w).1 with
  | ok a => rfl
  | error e => rfl

variable {env : Environment} {output : Config.Output} {t : Text} {q : Query}

theorem carryOut_query (hq : Query.compile t = .ok q) (file : Option Text) (compact ndjson : Bool) :
    carryOut env output (.query t file compact ndjson) =
      carryOutQuery q (file.getD stdinPath)
        ⟨output.pretty && !compact, output.ndjson || ndjson⟩ := by
  simp only [carryOut, hq]

/-- The report of a query command. -/
def queryReport (env : Environment) (output : Config.Output) (t : Text) (file : Option Text)
    (compact ndjson : Bool) (w : World) : Report :=
  ((carryOut env output (.query t file compact ndjson)).run w).1

/-- The report of a query command, in compact form, on a standard input that is a single line. -/
def lineReport (env : Environment) (t : Text) (w : World) (l : Text) : Report :=
  queryReport env ⟨false, false⟩ t none true false { w with stdin := l }

/-- The failure of a standard input that is no document. -/
def badInput : Failure := ⟨["parsing JSON from ".toList ++ stdinPath], .badJson⟩

theorem lineReport_eq (hq : Query.compile t = .ok q) (w : World) (l : Text) :
    lineReport env t w l = (Value.ofJson? l).elim (.ofFailure badInput) q.reportAlone := by
  unfold lineReport queryReport
  rw [carryOut_query hq]
  change ((reportOf (loadJson stdinPath) q.reportAlone).run { w with stdin := l }).1 = _
  have hread : (readSource stdinPath).result { w with stdin := l } = .ok l := rfl
  rw [run_reportOf, loadJson, Loading.result_bind_ofExcept hread, readJson]
  cases Value.ofJson? l with
  | none => rfl
  | some v => rfl

theorem map_lineReport (hq : Query.compile t = .ok q) (w : World) {ls : List Text}
    {vs : List Value} (h : ls.map Value.ofJson? = vs.map some) :
    ls.map (lineReport env t w) = vs.map q.reportAlone := calc
  ls.map (lineReport env t w)
    = (ls.map Value.ofJson?).map fun v => v.elim (.ofFailure badInput) q.reportAlone := by
      rw [List.map_map]
      exact List.map_congr_left fun l _ => lineReport_eq hq w l
  _ = (vs.map some).map fun v => v.elim (.ofFailure badInput) q.reportAlone := by rw [h]
  _ = vs.map q.reportAlone := by
      rw [List.map_map]
      rfl

theorem queryReport_of_source {file : Option Text} {compact ndjson : Bool} {w : World} {s : Text}
    (hq : Query.compile t = .ok q) (hlines : (output.ndjson || ndjson) = true)
    (hs : (readSource (file.getD stdinPath)).result w = .ok s) :
    queryReport env output t file compact ndjson w =
      match documentsOfLines s with
      | .ok vs => reportLines q (file.getD stdinPath) vs
      | .error e => .ofFailure e := by
  unfold queryReport
  rw [carryOut_query hq, carryOutQuery, if_pos hlines, run_reportOf,
    Loading.result_bind_ofExcept hs]
  cases documentsOfLines s with
  | ok vs => rfl
  | error e => rfl

theorem queryReport_eq_lineReports {file : Option Text} {ndjson : Bool} {w : World} {s : Text}
    (hq : Query.compile t = .ok q) (hlines : (output.ndjson || ndjson) = true)
    (hs : (readSource (file.getD stdinPath)).result w = .ok s) (env : Environment)
    (compact : Bool) :
    let r := queryReport env output t file compact ndjson w
    let rs := (documentLines s.lines).map (lineReport env t w)
    ((∃ n, BadLineFrom 1 s.lines n) →
      ∃ n, BadLineFrom 1 s.lines n ∧ (∀ m, BadLineFrom 1 s.lines m → n ≤ m) ∧
        r.out = [] ∧ r.failure = some (badLine n)) ∧
    ((∀ n, ¬ BadLineFrom 1 s.lines n) →
      r.out = Report.outUntilFailure rs ∧
        r.failure = Report.firstFailure Query.documentTask 1 rs) := by
  intro r rs
  have hr : r = _ := queryReport_of_source hq hlines hs
  refine ⟨fun ⟨m, hm⟩ => ?_, fun hgood => ?_⟩
  · obtain ⟨n, hn, hleast, hread⟩ := documentsFrom_of_bad hm
    refine ⟨n, hn, hleast, ?_⟩
    rw [hr, documentsOfLines, hread]
    exact ⟨rfl, rfl⟩
  · obtain ⟨vs, hread, hvs⟩ := documentsFrom_of_not_bad hgood
    have hrs : rs = vs.map q.reportAlone := map_lineReport hq w hvs
    rw [hr, documentsOfLines, hread, hrs]
    have h := Query.reportFrom_eq (Query.faithful_of_compile hq) 1 vs
    rw [Query.uncached_of_compile hq] at h
    exact h

/-- The second of three documents fails; two of the lines before it are blank. -/
theorem queryReport_second_fails :
    let t := "0.1".toList
    let s : Text := "[[1,2]]\r\n\n  \n[3]\n[[4,5]]".toList
    let r := queryReport ⟨none, false, false⟩ ⟨true, true⟩ t none false false ⟨.ofList [], s⟩
    r.out = "2\n".toList ∧
      r.failure = some ⟨["document 2".toList], .execution (.notAnArray 1 1 .number)⟩ := by
  intro t s r
  have hq : Query.compile t = .ok ⟨t, [.index 0, .index 1]⟩ := by decide
  have hmode : ((⟨true, true⟩ : Config.Output).ndjson || false) = true := rfl
  have hs : (readSource ((none : Option Text).getD stdinPath)).result ⟨.ofList [], s⟩ = .ok s := rfl
  have hlines : ∀ p ∈ (Text.lines s).zipIdx 1, p.1.trim = [] ∨ (Value.ofJson? p.1).isSome := by
    decide
  have hgood : ∀ n, ¬ BadLineFrom 1 (Text.lines s) n := by
    rintro n ⟨l, hl, hblank, hbad⟩
    rcases hlines _ hl with h | h
    · exact hblank h
    · rw [hbad] at h
      cases h
  obtain ⟨hout, hfailure⟩ :=
    (queryReport_eq_lineReports hq hmode hs ⟨none, false, false⟩ false).2 hgood
  exact ⟨hout.trans rfl, hfailure.trans rfl⟩

end DotQuery.CommandLine
