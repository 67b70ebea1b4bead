import DotQuery.Proofs.Query.Reach

/-!
# Events of runs

The events of a run are those of the segments that it reaches (`Run.mem_events_iff`). It tells of
each of them, in order and with the kind of the value that enters it
(`Run.getElem?_filter_isApplied`), and at most once of the parsing of its predicate
(`Run.countP_isParsedAt_le`).
-/

namespace DotQuery

namespace Event

/-- A segment is applied. -/
def isApplied : Event → Bool
  | segmentApplied .. => true
  | _ => false

/-- The predicate of segment `i` has been parsed. -/
def isParsedAt (i : Nat) : Event → Bool
  | predicateParsed j .. => j == i
  | _ => false

end Event

variable {n i j : Nat} {e : Event} {ss : List Segment} {s : Segment} {v : Option Value}

/-! ## Segments -/

namespace Segment

theorem mem_parseEvents_iff : e ∈ s.parseEvents n ↔ ∃ name p chain, s = filter name p ∧
    p.isParsed = false ∧ Chain.parse p.source = .ok chain ∧
    e = .predicateParsed n p.source chain.length := by
  constructor
  · intro h
    unfold parseEvents at h
    split at h
    · next name p =>
      split at h
      · next chain hparsed hchain =>
        have hunparsed : p.isParsed = false := by rw [Predicate.isParsed, hparsed]; rfl
        rw [Predicate.chain, hparsed, Option.getD_none] at hchain
        exact ⟨name, p, chain, rfl, hunparsed, hchain, List.mem_singleton.mp h⟩
      · cases h
    · cases h
  · rintro ⟨name, p, chain, rfl, hunparsed, hchain, rfl⟩
    rw [Predicate.eq_ofText_of_not_parsed hunparsed]
    simp only [parseEvents, Predicate.ofText, Predicate.chain, Option.getD_none, hchain,
      List.mem_singleton]

theorem countP_parseEvents_le (n : Nat) (s : Segment) (f : Event → Bool) :
    (s.parseEvents n).countP f ≤ 1 := by
  refine Nat.le_trans List.countP_le_length ?_
  unfold parseEvents
  split
  · split
    · exact Nat.le_refl 1
    · exact Nat.zero_le 1
  · exact Nat.zero_le 1

theorem filter_isApplied_events (n : Nat) (s : Segment) (v : Value) :
    (s.events n v).filter Event.isApplied = [.segmentApplied n s.kind v.kind] := by
  have hparse : (s.parseEvents n).filter Event.isApplied = [] := by
    refine List.filter_eq_nil_iff.mpr fun e he => ?_
    obtain ⟨_, _, _, _, _, _, rfl⟩ := mem_parseEvents_iff.mp he
    exact Bool.false_ne_true
  rw [events, List.filter_cons_of_pos rfl, hparse]

end Segment

/-! ## Runs -/

namespace Run

theorem events_cons (n : Nat) (s : Segment) (ss : List Segment) (v : Value) :
    (runSegments n (s :: ss) (some v)).events = s.events n v ++
      match s.apply n v with
      | .ok w => (runSegments (n + 1) ss w).events
      | .error _ => [] := by
  simp only [runSegments]
  cases s.apply n v with
  | ok w => rfl
  | error e => exact (List.append_nil _).symm

theorem mem_events_iff : e ∈ (runSegments n ss v).events ↔
    ∃ i s w, ss[i]? = some s ∧ ReachesFrom n ss v i w ∧ e ∈ s.events (n + i) w := by
  induction ss generalizing n v with
  | nil => exact iff_of_false List.not_mem_nil fun ⟨i, s, w, hs, _⟩ => by cases hs
  | cons s ss ih =>
    cases v with
    | none =>
      exact iff_of_false List.not_mem_nil fun ⟨i, t, w, _, hw, _⟩ => ReachesFrom.not_none hw
    | some v =>
      -- a segment keeps its position as the list in front of it gets shorter
      have hposition : ∀ i, n + (i + 1) = n + 1 + i := fun i => by omega
      rw [events_cons, List.mem_append]
      constructor
      · rintro (h | h)
        · exact ⟨0, s, v, rfl, ReachesFrom.zero_iff.mpr rfl, h⟩
        · split at h
          · next x hx =>
            obtain ⟨i, t, w, ht, hw, he⟩ := ih.mp h
            refine ⟨i + 1, t, w, ht, ReachesFrom.succ_iff.mpr ⟨x, hx, hw⟩, ?_⟩
            rw [hposition]
            exact he
          · cases h
      · rintro ⟨i, t, w, ht, hw, he⟩
        cases i with
        | zero =>
          cases ht
          cases ReachesFrom.zero_iff.mp hw
          exact .inl he
        | succ i =>
          obtain ⟨x, hx, hw⟩ := ReachesFrom.succ_iff.mp hw
          rw [hposition] at he
          rw [hx]
          exact .inr (ih.mpr ⟨i, t, w, ht, hw, he⟩)

/-- The segments that are applied, in order. -/
theorem getElem?_filter_isApplied :
    ((runSegments n ss v).events.filter Event.isApplied)[i]? = some e ↔
      ∃ s w, ss[i]? = some s ∧ ReachesFrom n ss v i w ∧
        e = .segmentApplied (n + i) s.kind w.kind := by
  induction ss generalizing n v i with
  | nil => exact iff_of_false nofun fun ⟨s, w, hs, _⟩ => by cases hs
  | cons s ss ih =>
    cases v with
    | none => exact iff_of_false nofun fun ⟨t, w, _, hw, _⟩ => ReachesFrom.not_none hw
    | some v =>
      rw [events_cons, List.filter_append, Segment.filter_isApplied_events, List.singleton_append]
      cases i with
      | zero =>
        simp only [List.getElem?_cons_zero, Option.some.injEq, ReachesFrom.zero_iff, Nat.add_zero]
        constructor
        · rintro rfl
          exact ⟨s, v, rfl, rfl, rfl⟩
        · rintro ⟨t, w, rfl, rfl, rfl⟩
          rfl
      | succ i =>
        have hposition : n + (i + 1) = n + 1 + i := by omega
        simp only [List.getElem?_cons_succ, ReachesFrom.succ_iff, hposition]
        cases s.apply n v with
        | ok x => simp [ih]
        | error f => simp

theorem isParsedAt_of_mem_parseEvents (h : e ∈ s.parseEvents n) : e.isParsedAt j = (n == j) := by
  obtain ⟨_, _, _, _, _, _, rfl⟩ := Segment.mem_parseEvents_iff.mp h
  rfl

/-- A run tells only once of the predicate of a segment. -/
theorem countP_isParsedAt_le (n : Nat) (ss : List Segment) (v : Option Value) (j : Nat) :
    (runSegments n ss v).events.countP (Event.isParsedAt j) ≤ 1 := by
  induction ss generalizing n v with
  | nil => exact Nat.zero_le 1
  | cons s ss ih =>
    cases v with
    | none => exact Nat.zero_le 1
    | some v =>
      have hfirst : (s.events n v).countP (Event.isParsedAt j) =
          (s.parseEvents n).countP (Event.isParsedAt j) := List.countP_cons_of_neg nofun
      rw [events_cons, List.countP_append, hfirst]
      cases s.apply n v with
      | error f => exact Segment.countP_parseEvents_le n s _
      | ok x =>
        dsimp only
        by_cases hj : n = j
        · -- all that follows is about later positions
          have hlater : (runSegments (n + 1) ss x).events.countP (Event.isParsedAt j) = 0 := by
            refine List.countP_eq_zero.mpr fun e he => ?_
            obtain ⟨i, t, w, -, -, he⟩ := mem_events_iff.mp he
            rcases List.mem_cons.mp he with rfl | he
            · exact Bool.false_ne_true
            · rw [isParsedAt_of_mem_parseEvents he, beq_false_of_ne (by omega)]
              exact Bool.false_ne_true
          rw [hlater]
          exact Segment.countP_parseEvents_le n s _
        · have hnow : (s.parseEvents n).countP (Event.isParsedAt j) = 0 := by
            refine List.countP_eq_zero.mpr fun e he => ?_
            rw [isParsedAt_of_mem_parseEvents he, beq_false_of_ne hj]
            exact Bool.false_ne_true
          rw [hnow, Nat.zero_add]
          exact ih (n + 1) x

end Run

end DotQuery
