import DotQuery.Proofs.Query.Cache

/-!
# Reached segments

A segment is reached with a value if the segments in front of it lead there (`ReachesFrom`). A run
fails with an error exactly if a reached segment fails with it (`Run.result_eq_error_iff`), and it
changes the segments that it reaches and no others.
-/

namespace DotQuery

/-- From `v`, the segments in front of segment `i` lead to the value `w`. The first segment has the
position `n`. -/
def ReachesFrom (n : Nat) (ss : List Segment) (v : Option Value) (i : Nat) (w : Value) : Prop :=
  i < ss.length ∧ (runSegments n (ss.take i) v).result = .ok (some w)

/-- Segment `i` of a query is reached on a document, with the value `w`. -/
def Query.Reaches (q : Query) (d : Value) (i : Nat) (w : Value) : Prop :=
  ReachesFrom 0 q.segments (some d) i w

variable {n i : Nat} {s : Segment} {ss : List Segment} {v w : Value} {e : ExecutionError}

namespace ReachesFrom

theorem not_none : ¬ ReachesFrom n ss none i w := by
  rintro ⟨-, h⟩
  rw [Run.result_none] at h
  cases h

theorem zero_iff : ReachesFrom n (s :: ss) (some v) 0 w ↔ v = w := by
  simp [ReachesFrom, runSegments]

theorem succ_iff : ReachesFrom n (s :: ss) (some v) (i + 1) w ↔
    ∃ x, s.apply n v = .ok x ∧ ReachesFrom (n + 1) ss x i w := by
  unfold ReachesFrom
  rw [List.take_succ_cons, Run.result_cons, List.length_cons, Nat.add_lt_add_iff_right]
  cases s.apply n v with
  | error e =>
    constructor
    · rintro ⟨-, h⟩
      cases h
    · rintro ⟨x, h, -⟩
      cases h
  | ok x =>
    constructor
    · rintro ⟨hi, h⟩
      exact ⟨x, rfl, hi, h⟩
    · rintro ⟨y, hy, hi, h⟩
      cases hy
      exact ⟨hi, h⟩

/-- Whether a segment is reached does not depend on what is behind it. -/
theorem take {v : Option Value} (h : ReachesFrom n ss v i w) :
    ReachesFrom n (ss.take (i + 1)) v i w := by
  obtain ⟨hi, h⟩ := h
  refine ⟨?_, ?_⟩
  · rw [List.length_take]
    omega
  · rw [List.take_take, Nat.min_eq_left (Nat.le_succ i)]
    exact h

end ReachesFrom

/-! ## Failures -/

/-- A run fails as the segment does that it reaches last. -/
theorem Run.result_eq_error_iff {v : Option Value} :
    (runSegments n ss v).result = .error e ↔
      ∃ i s w, ss[i]? = some s ∧ ReachesFrom n ss v i w ∧ s.apply (n + i) w = .error e := by
  induction ss generalizing n v with
  | nil =>
    constructor
    · intro h
      cases h
    · rintro ⟨i, s, w, hs, -⟩
      cases hs
  | cons s ss ih =>
    cases v with
    | none =>
      rw [Run.result_none]
      constructor
      · intro h
        cases h
      · rintro ⟨i, t, w, -, hw, -⟩
        exact absurd hw ReachesFrom.not_none
    | some v =>
      -- a segment keeps its position as the list in front of it gets shorter
      have hposition : ∀ i, n + (i + 1) = n + 1 + i := fun i => by omega
      rw [Run.result_cons]
      constructor
      · intro h
        cases hs : s.apply n v with
        | error f =>
          rw [hs] at h
          exact ⟨0, s, v, rfl, ReachesFrom.zero_iff.mpr rfl, hs.trans h⟩
        | ok x =>
          rw [hs] at h
          obtain ⟨i, t, w, ht, hw, hfail⟩ := ih.mp h
          refine ⟨i + 1, t, w, ht, ReachesFrom.succ_iff.mpr ⟨x, hs, hw⟩, ?_⟩
          rw [hposition]
          exact hfail
      · rintro ⟨i, t, w, ht, hw, hfail⟩
        cases i with
        | zero =>
          cases ht
          cases ReachesFrom.zero_iff.mp hw
          rw [show s.apply n v = .error e from hfail]
          rfl
        | succ i =>
          obtain ⟨x, hs, hw⟩ := ReachesFrom.succ_iff.mp hw
          rw [hs]
          rw [hposition] at hfail
          exact ih.mpr ⟨i, t, w, ht, hw, hfail⟩

/-- Nothing behind a segment that fails is looked at. -/
theorem Run.append_of_error {v : Option Value} (h : (runSegments n ss v).result = .error e)
    (ts : List Segment) :
    runSegments n (ss ++ ts) v =
      ⟨.error e, (runSegments n ss v).segments ++ ts, (runSegments n ss v).events⟩ := by
  induction ss generalizing n v with
  | nil => cases h
  | cons s ss ih =>
    cases v with
    | none =>
      rw [Run.result_none] at h
      cases h
    | some v =>
      rw [Run.result_cons] at h
      rw [List.cons_append]
      simp only [runSegments]
      cases hs : s.apply n v with
      | error f =>
        rw [hs] at h
        cases h
        rfl
      | ok x =>
        rw [hs] at h
        simp only [ih h]
        rfl

/-! ## Segments after a run -/

theorem Run.getElem?_segments_of_reached {v : Option Value} (h : ReachesFrom n ss v i w) :
    (runSegments n ss v).segments[i]? = (ss[i]?).map Segment.force := by
  induction ss generalizing n v i with
  | nil => exact absurd h.1 (Nat.not_lt_zero i)
  | cons s ss ih =>
    cases v with
    | none => exact absurd h ReachesFrom.not_none
    | some v =>
      simp only [runSegments]
      cases i with
      | zero => cases s.apply n v <;> rfl
      | succ i =>
        obtain ⟨x, hs, hx⟩ := ReachesFrom.succ_iff.mp h
        rw [hs]
        exact ih hx

theorem Run.getElem?_segments_of_not_reached {v : Option Value}
    (h : ∀ w, ¬ ReachesFrom n ss v i w) : (runSegments n ss v).segments[i]? = ss[i]? := by
  induction ss generalizing n v i with
  | nil => rfl
  | cons s ss ih =>
    cases v with
    | none => rfl
    | some v =>
      cases i with
      | zero => exact absurd (ReachesFrom.zero_iff.mpr rfl) (h v)
      | succ i =>
        simp only [runSegments]
        cases hs : s.apply n v with
        | error f => rfl
        | ok x => exact ih fun w hw => h w (ReachesFrom.succ_iff.mpr ⟨x, hs, hw⟩)

end DotQuery
