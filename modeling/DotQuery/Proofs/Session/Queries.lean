import DotQuery.Proofs.Query.Cache
import DotQuery.Session

/-!
# The queries of a session

`step_changes` says all that a step can do to the queries of a session: it leaves them alone, puts a
compiled query or a copy under a name, or parses predicates of a query that is there. From it follow
what a run keeps: a name that no step works on keeps its query (`query?_run_of_untouched`), one that
no step replaces keeps it up to parsed predicates (`query?_run_of_kept`).
-/

namespace DotQuery

namespace Session

/-- The name of the query that a step puts or changes. -/
def Step.touches : Step → Option Text
  | .compile name _ => some name
  | .execute name _ _ => some name
  | .chain name _ => some name
  | .explain name _ => some name
  | .copy _ into => some into
  | _ => none

/-- The name under which a step puts another query. -/
def Step.replaces : Step → Option Text
  | .compile name _ => some name
  | .copy _ into => some into
  | _ => none

/-! ## Looking up -/

theorem query?_setQuery_self (s : Session) (name : Text) (q : Query) :
    (s.setQuery name q).query? name = some q := Fields.lookup_put_self name q s.queries

theorem query?_setQuery_of_ne (s : Session) {name n : Text} (h : n ≠ name) (q : Query) :
    (s.setQuery name q).query? n = s.query? n := Fields.lookup_put_of_ne h q s.queries

theorem queries_keep (s : Session) (into : Option Text) (v : Option Value) :
    (s.keep into v).queries = s.queries := by
  cases into with
  | none => rfl
  | some name => cases v <;> rfl

theorem query?_congr {s t : Session} (h : s.queries = t.queries) (name : Text) :
    s.query? name = t.query? name := by
  unfold query?
  rw [h]

/-! ## One step -/

theorem grows_forceSegment (q : Query) (i : Nat) : q.Grows (forceSegment q i) :=
  ⟨rfl, .modify_force _ _⟩

/-- Where a query that a step puts under a name comes from. -/
inductive Origin (s : Session) (a : Step) (name : Text) (q : Query) : Prop where
  | compiled {source : Text} (ha : a.replaces = some name) (hq : Query.compile source = .ok q)
  | copied {other : Text} (ha : a.replaces = some name) (hq : s.query? other = some q)
  | parsed {r : Query} (hr : s.query? name = some r) (h : r.Grows q)

/-- What a step does to the queries of a session. -/
inductive Changes (s : Session) (a : Step) (s' : Session) : Prop where
  | nothing (h : s'.queries = s.queries)
  | puts {name : Text} {q : Query} (ha : a.touches = some name) (origin : s.Origin a name q)
      (h : s'.queries = (s.setQuery name q).queries)

theorem execute_changes (s : Session) (name document : Text) (into : Option Text) :
    s.Changes (.execute name document into) (s.step (.execute name document into)).1 := by
  simp only [step, onQuery]
  split
  · next q hq =>
    unfold onDocument
    split
    · next v _ =>
      refine .puts rfl (.parsed hq (q.grows_execute v)) ?_
      dsimp only
      split
      · exact queries_keep _ _ _
      · rfl
    · exact .nothing rfl
  · exact .nothing rfl

theorem step_changes (s : Session) (a : Step) : s.Changes a (s.step a).1 := by
  cases a with
  | compile name source =>
    simp only [step]
    split
    · next q hq => exact .puts rfl (.compiled rfl hq) rfl
    · exact .nothing rfl
  | load name json =>
    simp only [step]
    split
    · exact .nothing (queries_keep _ _ _)
    · exact .nothing rfl
  | execute name document into => exact execute_changes s name document into
  | parsed name =>
    simp only [step, onQuery]
    split <;> exact .nothing rfl
  | chain name i =>
    simp only [step, onQuery]
    split
    · next q hq =>
      split
      · exact .puts rfl (.parsed hq (grows_forceSegment q i)) rfl
      · exact .nothing rfl
    · exact .nothing rfl
  | explain name palette =>
    simp only [step, onQuery]
    split
    · next q hq => exact .puts rfl (.parsed hq (q.grows_explain palette)) rfl
    · exact .nothing rfl
  | copy name into =>
    simp only [step, onQuery]
    split
    · next q hq => exact .puts rfl (.copied rfl hq) rfl
    · exact .nothing rfl
  | compare name other =>
    simp only [step, onQuery]
    split
    · split <;> exact .nothing rfl
    · exact .nothing rfl
  | path name path into =>
    simp only [step, onDocument]
    split
    · exact .nothing (queries_keep _ _ _)
    · exact .nothing rfl
  | showDocument name =>
    simp only [step, onDocument]
    split <;> exact .nothing rfl

theorem query?_step_of_untouched {s : Session} {a : Step} {n : Text} (hn : a.touches ≠ some n) :
    (s.step a).1.query? n = s.query? n := by
  cases step_changes s a with
  | nothing h => exact query?_congr h n
  | @puts name q ha _ h =>
    have hne : n ≠ name := fun e => hn (e ▸ ha)
    rw [query?_congr h, query?_setQuery_of_ne s hne]

theorem query?_step_of_kept {s : Session} {a : Step} {n : Text} {q : Query}
    (hq : s.query? n = some q) (hn : a.replaces ≠ some n) :
    ∃ q', (s.step a).1.query? n = some q' ∧ q.Grows q' := by
  cases step_changes s a with
  | nothing h => exact ⟨q, (query?_congr h n).trans hq, .refl q⟩
  | @puts name q' _ origin h =>
    rw [query?_congr h]
    by_cases e : n = name
    · subst e
      cases origin with
      | compiled ha _ => exact absurd ha hn
      | copied ha _ => exact absurd ha hn
      | parsed hr hgrows =>
        rw [hq] at hr
        cases hr
        exact ⟨q', query?_setQuery_self s n q', hgrows⟩
    · exact ⟨q, (query?_setQuery_of_ne s e q').trans hq, .refl q⟩

/-! ## Runs -/

theorem query?_run_of_untouched {s : Session} {as : List Step} {n : Text}
    (h : ∀ a ∈ as, a.touches ≠ some n) : (s.run as).1.query? n = s.query? n := by
  induction as generalizing s with
  | nil => rfl
  | cons a as ih =>
    rw [List.forall_mem_cons] at h
    exact (ih h.2).trans (query?_step_of_untouched h.1)

theorem query?_run_of_kept {s : Session} {as : List Step} {n : Text} {q : Query}
    (hq : s.query? n = some q) (h : ∀ a ∈ as, a.replaces ≠ some n) :
    ∃ q', (s.run as).1.query? n = some q' ∧ q.Grows q' := by
  induction as generalizing s q with
  | nil => exact ⟨q, hq, .refl q⟩
  | cons a as ih =>
    rw [List.forall_mem_cons] at h
    obtain ⟨r, hr, hgrows⟩ := query?_step_of_kept hq h.1
    obtain ⟨q', hq', hgrows'⟩ := ih hr h.2
    exact ⟨q', hq', hgrows.trans hgrows'⟩

end Session

end DotQuery
