import DotQuery.Proofs.Query.Laziness
import DotQuery.Session

/-!
# Uses of a query

A compiled query is run on documents, explained, and asked for single predicates, in any order
(`Query.Use`). What was done before changes nothing about which segments a document reaches
(`Query.Grows.reaches_iff`), and a predicate has been parsed exactly if it was at the start or one
of the uses needed it (`Query.parsed_after_iff`).
-/

namespace DotQuery

theorem Forced.length_eq {ss ss' : List Segment} (h : Forced ss ss') : ss'.length = ss.length := by
  simpa using congrArg List.length h.map_uncached

theorem Forced.map_kind {ss ss' : List Segment} (h : Forced ss ss') :
    ss'.map Segment.kind = ss.map Segment.kind := by
  induction h with
  | nil => rfl
  | keep s _ ih => rw [List.map_cons, List.map_cons, ih]
  | force s _ ih =>
    have hs : s.force.kind = s.kind := by cases s <;> rfl
    rw [List.map_cons, List.map_cons, ih, hs]

theorem Forced.exists_kind_iff {ss ss' : List Segment} (h : Forced ss ss') {i : Nat}
    {P : Text → Prop} :
    (∃ s, ss'[i]? = some s ∧ P s.kind) ↔ ∃ s, ss[i]? = some s ∧ P s.kind := by
  have hkind : ∀ ts : List Segment,
      (∃ s, ts[i]? = some s ∧ P s.kind) ↔ ∃ k, (ts.map Segment.kind)[i]? = some k ∧ P k :=
    fun ts => by simp
  rw [hkind, hkind, h.map_kind]

theorem Forced.exists_filter {ss ss' : List Segment} (h : Forced ss ss') {i : Nat}
    {name : Option Text} {p' : Predicate} (hp' : ss'[i]? = some (.filter name p')) :
    ∃ p, ss[i]? = some (.filter name p) ∧ (p' = p ∨ p' = p.force) := by
  induction h generalizing i with
  | nil => cases hp'
  | keep s _ ih =>
    cases i with
    | zero => exact ⟨p', hp', .inl rfl⟩
    | succ i => exact ih hp'
  | force s _ ih =>
    cases i with
    | zero =>
      cases s with
      | filter name p =>
        cases hp'
        exact ⟨p, rfl, .inr rfl⟩
      | _ => cases hp'
    | succ i => exact ih hp'

namespace Query

inductive Use where
  | execute (document : Value)
  | explain (palette : Palette)
  /-- Ask for the predicate of a segment. -/
  | chain (segment : Nat)

/-- The query after a use, and the events of the use. -/
def use (q : Query) : Use → Query × List Event
  | .execute d => ((q.execute d).query, (q.execute d).events)
  | .explain palette => ((q.explain palette).query, (q.explain palette).events)
  | .chain i => (Session.forceSegment q i, [])

/-- The query after some uses, one after the other. -/
def after (q : Query) (uses : List Use) : Query := uses.foldl (fun q u => (q.use u).1) q

/-- A use needs the predicate of segment `i`. -/
def Forces (q : Query) (i : Nat) : Use → Prop
  | .execute d => ∃ w, q.Reaches d i w
  | .explain _ => True
  | .chain j => j = i

variable {q r : Query} {i : Nat} {name : Option Text} {p : Predicate}

theorem grows_use (q : Query) (u : Use) : q.Grows (q.use u).1 := by
  cases u with
  | execute d => exact q.grows_execute d
  | explain palette => exact q.grows_explain palette
  | chain i => exact ⟨rfl, .modify_force _ _⟩

theorem grows_after (q : Query) (uses : List Use) : q.Grows (q.after uses) := by
  induction uses generalizing q with
  | nil => exact .refl q
  | cons u uses ih => exact (q.grows_use u).trans (ih (q.use u).1)

/-! ## Reached segments -/

theorem Grows.result_take (h : q.Grows r) (hq : q.Faithful) (d : Value) (i : Nat) :
    (runSegments 0 (r.segments.take i) (some d)).result =
      (runSegments 0 (q.segments.take i) (some d)).result := by
  have hqi : ∀ s ∈ q.segments.take i, s.Faithful := fun s hs =>
    hq.segments s (List.mem_of_mem_take hs)
  have hri : ∀ s ∈ r.segments.take i, s.Faithful := fun s hs =>
    (h.faithful hq).segments s (List.mem_of_mem_take hs)
  rw [← Run.result_uncached hqi, ← Run.result_uncached hri, List.map_take, List.map_take,
    h.segments.map_uncached]

theorem Grows.reaches_iff (h : q.Grows r) (hq : q.Faithful) {d w : Value} :
    r.Reaches d i w ↔ q.Reaches d i w := by
  unfold Reaches ReachesFrom
  rw [h.result_take hq, h.segments.length_eq]

theorem Grows.forces_iff (h : q.Grows r) (hq : q.Faithful) {u : Use} :
    r.Forces i u ↔ q.Forces i u := by
  cases u with
  | execute d => exact exists_congr fun w => h.reaches_iff hq
  | explain palette => exact Iff.rfl
  | chain j => exact Iff.rfl

/-! ## Parsed predicates -/

theorem parsed_use_iff (hp : q.segments[i]? = some (.filter name p)) (u : Use) :
    ∃ p', (q.use u).1.segments[i]? = some (.filter name p') ∧ p'.source = p.source ∧
      (p'.isParsed ↔ p.isParsed ∨ q.Forces i u) := by
  cases u with
  | execute d => exact parsed_execute_iff hp
  | explain palette =>
    have hforced : (q.segments.map Segment.force)[i]? = some (.filter name p.force) := by
      rw [List.getElem?_map, hp]
      rfl
    exact ⟨p.force, hforced, rfl, iff_of_true rfl (.inr trivial)⟩
  | chain j =>
    by_cases hj : j = i
    · have hforced : (q.segments.modify j Segment.force)[i]? = some (.filter name p.force) := by
        rw [hj, List.getElem?_modify_eq, hp]
        rfl
      exact ⟨p.force, hforced, rfl, iff_of_true rfl (.inr hj)⟩
    · have hkept : (q.segments.modify j Segment.force)[i]? = some (.filter name p) := by
        rw [List.getElem?_modify_ne _ _ hj, hp]
      exact ⟨p, hkept, rfl, (or_iff_left hj).symm⟩

theorem parsed_after_iff (hq : q.Faithful) (hp : q.segments[i]? = some (.filter name p))
    (uses : List Use) :
    ∃ p', (q.after uses).segments[i]? = some (.filter name p') ∧ p'.source = p.source ∧
      (p'.isParsed ↔ p.isParsed ∨ ∃ u ∈ uses, q.Forces i u) := by
  induction uses generalizing q p with
  | nil => exact ⟨p, hp, rfl, by simp⟩
  | cons u uses ih =>
    have hgrows := q.grows_use u
    obtain ⟨p₁, hp₁, hsource₁, hparsed₁⟩ := parsed_use_iff hp u
    obtain ⟨p₂, hp₂, hsource₂, hparsed₂⟩ := ih (hgrows.faithful hq) hp₁
    refine ⟨p₂, hp₂, hsource₂.trans hsource₁, ?_⟩
    simp only [hparsed₂, hparsed₁, hgrows.forces_iff hq, List.mem_cons, exists_eq_or_imp, or_assoc]

end Query

end DotQuery
