import DotQuery.Json.Path
import DotQuery.Json.Reader
import DotQuery.Query.Explain
import DotQuery.Query.Execute

/-!
# Sessions

A session holds compiled queries and documents by name. `Session.step` carries out one step and
answers it; queries remember the predicates that a step had parsed, and a copy of a query goes its
own way from then on.
-/

namespace DotQuery

structure Session where
  queries : Fields Query
  documents : Fields Value

namespace Session

inductive Step where
  | compile (query source : Text)
  | load (document json : Text)
  /-- Run a query on a document; the result may be kept under a name. -/
  | execute (query document : Text) (into : Option Text)
  /-- Which predicates have been parsed. -/
  | parsed (query : Text)
  /-- Parse the predicate of a segment. -/
  | chain (query : Text) (segment : Nat)
  /-- Explain a query, in the marks of a palette. -/
  | explain (query : Text) (palette : Palette)
  | copy (query into : Text)
  | compare (query other : Text)
  | path (document path : Text) (into : Option Text)
  | showDocument (document : Text)

inductive Answer where
  | unknownName
  | compiled (result : Except CompileError Query)
  | value (v : Option Value)
  | badJson
  | executed (result : Except ExecutionError (Option Value)) (parsed : List (Option Bool))
  | parsed (flags : List (Option Bool))
  | chain (result : Except InvalidCondition Chain)
  | notAFilter
  | explained (text : Text)
  | compared (queries segments : Bool)

def empty : Session := ⟨[], []⟩

def query? (s : Session) (name : Text) : Option Query := s.queries.lookup name

def setQuery (s : Session) (name : Text) (q : Query) : Session :=
  { s with queries := Fields.put name q s.queries }

/-- Keep a result under a name, if there is one; an absent result frees the name. -/
def keep (s : Session) (into : Option Text) (v : Option Value) : Session :=
  match into, v with
  | none, _ => s
  | some name, some v => { s with documents := Fields.put name v s.documents }
  | some name, none => { s with documents := s.documents.filter fun (n, _) => n ≠ name }

def flags (q : Query) : List (Option Bool) := q.segments.map Segment.isParsed?

/-- Carry out a step on a query, if the name is known. -/
def onQuery (s : Session) (name : Text) (f : Query → Session × Answer) : Session × Answer :=
  match s.query? name with
  | some q => f q
  | none => (s, .unknownName)

def onDocument (s : Session) (name : Text) (f : Value → Session × Answer) : Session × Answer :=
  match s.documents.lookup name with
  | some v => f v
  | none => (s, .unknownName)

def forceSegment (q : Query) (segment : Nat) : Query :=
  { q with segments := q.segments.modify segment Segment.force }

def step (s : Session) : Step → Session × Answer
  | .compile name source =>
    match Query.compile source with
    | .ok q => (s.setQuery name q, .compiled (.ok q))
    | .error e => (s, .compiled (.error e))
  | .load name json =>
    match Value.ofJson? json with
    | some v => (s.keep (some name) (some v), .value (some v))
    | none => (s, .badJson)
  | .execute name document into =>
    s.onQuery name fun q => s.onDocument document fun v =>
      let x := q.execute v
      let s := s.setQuery name x.query
      match x.result with
      | .ok w => (s.keep into w, .executed (.ok w) (flags x.query))
      | .error e => (s, .executed (.error e) (flags x.query))
  | .parsed name => s.onQuery name fun q => (s, .parsed (flags q))
  | .chain name segment =>
    s.onQuery name fun q =>
      match q.segments[segment]? with
      | some (.filter _ p) => (s.setQuery name (forceSegment q segment), .chain p.chain)
      | _ => (s, .notAFilter)
  | .explain name palette =>
    s.onQuery name fun q =>
      let x := q.explain palette
      (s.setQuery name x.query, .explained x.text)
  | .copy name into => s.onQuery name fun q => (s.setQuery into q, .parsed (flags q))
  | .compare name other =>
    s.onQuery name fun q => s.onQuery other fun r =>
      (s, .compared (q.same r) (q.sameSegments r))
  | .path name path into =>
    s.onDocument name fun v =>
      let w := v.atPath? path
      (s.keep into w, .value w)
  | .showDocument name => s.onDocument name fun v => (s, .value (some v))

/-- Carry out steps in order. -/
def run (s : Session) : List Step → Session × List Answer
  | [] => (s, [])
  | step :: steps =>
    let r := s.step step
    let rs := r.1.run steps
    (rs.1, r.2 :: rs.2)

end Session

end DotQuery
