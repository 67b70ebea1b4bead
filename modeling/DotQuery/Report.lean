import DotQuery.Document
import DotQuery.Query.Explain
import DotQuery.Template

/-!
# Reports

What a command writes, the events on the way, and the failure that ended it, if one did. Text that
was written before a failure stays.
-/

namespace DotQuery

structure Report where
  out : Text
  events : List Event
  failure : Option Failure

namespace Report

def ofOut (out : Text) : Report := ⟨out, [], none⟩

def ofFailure (f : Failure) : Report := ⟨[], [], some f⟩

/-- One report after another, unless the first ends in a failure. -/
def andThen (r : Report) (next : Report) : Report :=
  if r.failure.isSome then r
  else ⟨r.out ++ next.out, r.events ++ next.events, next.failure⟩

end Report

/-- A result on a line of its own; no line for an absent one. -/
def reportResult (pretty : Bool) : Option Value → Report
  | some v => .ofOut (v.output pretty ++ ['\n'])
  | none => ⟨[], [.nothingFound], none⟩

namespace Execution

/-- The result of a run, or its failure as part of some tasks. -/
def report (pretty : Bool) (context : List Text) (x : Execution) : Report :=
  match x.result with
  | .ok v => (⟨[], x.events, none⟩ : Report).andThen (reportResult pretty v)
  | .error e => ⟨[], x.events, some ⟨context, .execution e⟩⟩

end Execution

namespace Query

/-- Run a query on one document after the other, of which the first has the given number. Each
result is on one line; the first failure ends the report. -/
def reportFrom (q : Query) (number : Nat) : List Value → Report
  | [] => .ofOut []
  | v :: vs =>
    let x := q.execute v
    (x.report false ["document ".toList ++ Text.ofNat number]).andThen
      (x.query.reportFrom (number + 1) vs)

def reportMany (q : Query) (documents : List Value) : Report := q.reportFrom 1 documents

end Query

/-- Run a query text on a document. -/
def reportQuery (pretty : Bool) (t : Text) (document : Value) : Report :=
  match Query.compile t with
  | .error e => .ofFailure (.ofCause (.compile e))
  | .ok q => (q.execute document).report pretty []

namespace LoadedBlock

/-- The header of a block, and its document or the result of a query on it. -/
def report (b : LoadedBlock) (query : Option Text) (pretty : Bool) : Report :=
  (Report.ofOut b.block.header).andThen
    (match query with
    | some t => reportQuery pretty t b.document
    | none => reportResult pretty (some b.document))

end LoadedBlock

def Explanation.report (x : Explanation) : Report := ⟨x.text, x.events, none⟩

/-- A filled template on a line of its own. -/
def reportTemplate (template : Text) (document : Value) : Report :=
  .ofOut (Template.fill document template ++ ['\n'])

end DotQuery
