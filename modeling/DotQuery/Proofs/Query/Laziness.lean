import DotQuery.Proofs.Query.Reach

/-!
# Runs look at what they reach

A query fails exactly at the first reached segment that its value does not fit or whose predicate
does not parse, whatever comes behind, and it parses the predicates of the segments that it reaches
and no others. `Query.Lazy` collects what this says about a query, with any of its predicates parsed
before, and a document.
-/

namespace DotQuery

/-- A segment at position `n` fails on a value: an index on everything but arrays, and a filter with
a bad predicate on every value. -/
inductive Segment.Fails (n : Nat) : Segment → Value → ExecutionError → Prop where
  | notAnArray {place : Nat} {v : Value} (h : v.kind ≠ .array) :
      Fails n (.index place) v (.notAnArray n place v.kind)
  | badPredicate {name : Option Text} {p : Predicate} {v : Value} {cause : InvalidCondition}
      (h : Chain.parse p.source = .error cause) : Fails n (.filter name p) v (.badPredicate n cause)

namespace Segment

theorem apply_index_of_ne_array {v : Value} (h : v.kind ≠ .array) (n place : Nat) :
    (index place).apply n v = .error (.notAnArray n place v.kind) := by
  cases v with
  | array items => exact absurd rfl h
  | _ => rfl

theorem apply_eq_error_iff {s : Segment} (h : s.Faithful) {n : Nat} {v : Value}
    {e : ExecutionError} : s.apply n v = .error e ↔ s.Fails n v e := by
  constructor
  · intro he
    cases s with
    | field name => cases he
    | projection names => cases he
    | index place =>
      cases v with
      | array items => cases he
      | _ =>
        cases he
        exact .notAnArray nofun
    | filter name p =>
      simp only [apply] at he
      cases hp : p.chain with
      | ok chain =>
        rw [hp] at he
        cases he
      | error cause =>
        rw [hp] at he
        cases he
        exact .badPredicate ((Predicate.Faithful.chain_eq h).symm.trans hp)
  · intro hfails
    cases hfails with
    | notAnArray hkind => exact apply_index_of_ne_array hkind _ _
    | badPredicate hp =>
      simp only [apply]
      rw [Predicate.Faithful.chain_eq h, hp]

theorem Fails.position_eq {s : Segment} {n : Nat} {v : Value} {e : ExecutionError}
    (h : s.Fails n v e) : e.position = n := by
  cases h <;> rfl

end Segment

namespace Query

variable {q : Query}

theorem Faithful.result_eq_error_iff (hq : q.Faithful) {d : Value} {e : ExecutionError} :
    (q.execute d).result = .error e ↔
      ∃ s w, q.segments[e.position]? = some s ∧ q.Reaches d e.position w ∧
        s.Fails e.position w e := by
  unfold execute
  rw [Run.result_eq_error_iff]
  constructor
  · rintro ⟨i, s, w, hs, hw, hfail⟩
    rw [Nat.zero_add, Segment.apply_eq_error_iff (hq.segments s (List.mem_of_getElem? hs))] at hfail
    rw [hfail.position_eq]
    exact ⟨s, w, hs, hw, hfail⟩
  · rintro ⟨s, w, hs, hw, hfail⟩
    refine ⟨e.position, s, w, hs, hw, ?_⟩
    rw [Nat.zero_add, Segment.apply_eq_error_iff (hq.segments s (List.mem_of_getElem? hs))]
    exact hfail

theorem Faithful.runSegments_take_eq_error (hq : q.Faithful) {d : Value} {e : ExecutionError}
    (h : (q.execute d).result = .error e) :
    (runSegments 0 (q.segments.take (e.position + 1)) (some d)).result = .error e := by
  obtain ⟨s, w, hs, hw, hfail⟩ := hq.result_eq_error_iff.mp h
  refine Run.result_eq_error_iff.mpr ⟨e.position, s, w, ?_, hw.take, ?_⟩
  · rw [List.getElem?_take_of_lt (Nat.lt_succ_self _)]
    exact hs
  · rw [Nat.zero_add, Segment.apply_eq_error_iff (hq.segments s (List.mem_of_getElem? hs))]
    exact hfail

/-- A query that begins as one that fails does, up to the segment that fails, fails as well. -/
theorem execute_of_take_eq_error {r : Query} {d : Value} {e : ExecutionError} {k : Nat}
    (h : (runSegments 0 (r.segments.take k) (some d)).result = .error e) :
    (r.execute d).result = .error e ∧
      (r.execute d).events = (runSegments 0 (r.segments.take k) (some d)).events := by
  have hrun := Run.append_of_error h (r.segments.drop k)
  rw [List.take_append_drop] at hrun
  unfold execute
  rw [hrun]
  exact ⟨rfl, rfl⟩

/-- What a query does with a document, by the segments that it reaches. -/
structure Lazy (q : Query) (d : Value) : Prop where
  /-- An error is that of the reached segment at its position. -/
  fails_iff : ∀ e, (q.execute d).result = .error e ↔
    ∃ s w, q.segments[e.position]? = some s ∧ q.Reaches d e.position w ∧ s.Fails e.position w e
  /-- What is behind the segment that fails does not matter. -/
  ahead : ∀ e, (q.execute d).result = .error e → ∀ r : Query,
    r.segments.take (e.position + 1) = q.segments.take (e.position + 1) →
    (r.execute d).result = .error e ∧ (r.execute d).events = (q.execute d).events
  /-- A predicate is parsed afterwards if it was before or its segment is reached. -/
  parsed_iff : ∀ i name p, q.segments[i]? = some (.filter name p) →
    ∃ p', (q.execute d).query.segments[i]? = some (.filter name p') ∧ p'.source = p.source ∧
      (p'.isParsed ↔ p.isParsed ∨ ∃ w, q.Reaches d i w)
  /-- Only indices and bad predicates fail. -/
  succeeds : (∀ place, .index place ∉ q.segments) →
    (∀ name p, .filter name p ∈ q.segments → ∃ chain, Chain.parse p.source = .ok chain) →
    ∃ v, (q.execute d).result = .ok v

theorem Faithful.exists_result (hq : q.Faithful) {d : Value}
    (hindex : ∀ place, .index place ∉ q.segments)
    (hfilter : ∀ name p, .filter name p ∈ q.segments → ∃ chain, Chain.parse p.source = .ok chain) :
    ∃ v, (q.execute d).result = .ok v := by
  cases h : (q.execute d).result with
  | ok v => exact ⟨v, rfl⟩
  | error e =>
    obtain ⟨s, w, hs, -, hfails⟩ := hq.result_eq_error_iff.mp h
    have hmem := List.mem_of_getElem? hs
    generalize e.position = n at hfails
    cases hfails with
    | notAnArray => exact absurd hmem (hindex _)
    | badPredicate hp =>
      obtain ⟨chain, hchain⟩ := hfilter _ _ hmem
      rw [hp] at hchain
      cases hchain

theorem parsed_execute_iff {d : Value} {i : Nat} {name : Option Text} {p : Predicate}
    (hp : q.segments[i]? = some (.filter name p)) :
    ∃ p', (q.execute d).query.segments[i]? = some (.filter name p') ∧ p'.source = p.source ∧
      (p'.isParsed ↔ p.isParsed ∨ ∃ w, q.Reaches d i w) := by
  by_cases hreached : ∃ w, q.Reaches d i w
  · obtain ⟨w, hw⟩ := hreached
    have hforced : (q.execute d).query.segments[i]? = some (.filter name p.force) := by
      refine (Run.getElem?_segments_of_reached hw).trans ?_
      rw [hp]
      rfl
    exact ⟨p.force, hforced, rfl, iff_of_true rfl (.inr ⟨w, hw⟩)⟩
  · have hkept : (q.execute d).query.segments[i]? = some (.filter name p) :=
      (Run.getElem?_segments_of_not_reached (not_exists.mp hreached)).trans hp
    exact ⟨p, hkept, rfl, (or_iff_left hreached).symm⟩

theorem lazy_execute (hq : q.Faithful) (d : Value) : q.Lazy d where
  fails_iff _ := hq.result_eq_error_iff
  ahead e he r hr := by
    have htake := hq.runSegments_take_eq_error he
    have hr' := htake
    rw [← hr] at hr'
    obtain ⟨-, hevents⟩ := execute_of_take_eq_error htake
    obtain ⟨hresult', hevents'⟩ := execute_of_take_eq_error hr'
    rw [hevents, hevents', hr]
    exact ⟨hresult', rfl⟩
  parsed_iff _ _ _ hp := parsed_execute_iff hp
  succeeds := hq.exists_result

/-- The bad predicate is reached with an object that has no array to narrow; the filter behind it
is not looked at. That the error was found in an earlier run makes no difference. -/
theorem lazy_execute_bad_predicate :
    let cause : InvalidCondition := ⟨"oops".toList⟩
    let q : Query := ⟨"a.xs[oops].ys[k==1]".toList,
      [.field ['a'], .filter (some "xs".toList) ⟨"oops".toList, some (.error cause)⟩,
        .filter (some "ys".toList) (.ofText "k==1".toList)]⟩
    let d : Value := .object [(['a'], .object [])]
    q.Faithful ∧ (q.execute d).result = .error (.badPredicate 1 cause) ∧
      ∃ p, (q.execute d).query.segments[2]? = some (.filter (some "ys".toList) p) ∧
        p.isParsed = false := by
  intro cause q d
  have hq : q.Faithful := by
    refine ⟨by decide, fun s hs => ?_⟩
    simp only [q, List.mem_cons, List.not_mem_nil, or_false] at hs
    rcases hs with rfl | rfl | rfl
    · trivial
    · intro r hr
      cases hr
      decide
    · exact Predicate.faithful_ofText _
  have hlazy := lazy_execute hq d
  have hreached : q.Reaches d 1 (.object []) := ⟨by decide, rfl⟩
  have hfail : (q.execute d).result = .error (.badPredicate 1 cause) :=
    (hlazy.fails_iff _).mpr ⟨_, _, rfl, hreached, .badPredicate (by decide)⟩
  refine ⟨hq, hfail, ?_⟩
  obtain ⟨p, hp, -, hparsed⟩ := hlazy.parsed_iff 2 _ _ rfl
  refine ⟨p, hp, Bool.eq_false_iff.mpr fun h => ?_⟩
  rcases hparsed.mp h with h | ⟨w, -, hw⟩
  · cases h
  · cases hw

end Query

end DotQuery
