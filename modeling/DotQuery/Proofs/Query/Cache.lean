import DotQuery.Proofs.Query.Classification
import DotQuery.Proofs.Query.Pieces
import DotQuery.Proofs.Query.Run
import DotQuery.Query.Explain

/-!
# Parsed predicates

A filter may hold the outcome of parsing its predicate. `Faithful` says that what is held is what
parsing gives; a query is faithful if, besides, it is as compiled but for what its filters hold.
`Forced ss ss'` says that `ss'` are the segments `ss` with some more predicates parsed: all that
running, explaining and asking for a predicate do to a query is of this kind. Results and
explanations of faithful queries are those of the query as compiled (`result_uncached`,
`linesFrom_uncached`).
-/

namespace DotQuery

/-! ## Predicates -/

namespace Predicate

/-- What is held is what parsing gives. -/
def Faithful (p : Predicate) : Prop := ∀ r, p.parsed = some r → r = Chain.parse p.source

theorem faithful_ofText (t : Text) : (ofText t).Faithful := fun _ h => by cases h

theorem eq_ofText_of_not_parsed {p : Predicate} (h : p.isParsed = false) : p = ofText p.source := by
  obtain ⟨source, _ | r⟩ := p
  · rfl
  · cases h

theorem Faithful.chain_eq {p : Predicate} (h : p.Faithful) : p.chain = Chain.parse p.source := by
  unfold chain
  cases hp : p.parsed with
  | none => rfl
  | some r => exact h r hp

theorem Faithful.force {p : Predicate} (h : p.Faithful) : p.force.Faithful := by
  intro r hr
  have hr : some p.chain = some r := hr
  cases hr
  exact h.chain_eq

theorem Faithful.chain_uncached {p : Predicate} (h : p.Faithful) : p.uncached.chain = p.chain := by
  rw [h.chain_eq]
  rfl

end Predicate

/-! ## Segments -/

namespace Segment

def Faithful : Segment → Prop
  | filter _ p => p.Faithful
  | _ => True

theorem ReadFrom.faithful {t : Text} {s : Segment} (h : s.ReadFrom t) : s.Faithful := by
  cases s with
  | filter name p =>
    obtain ⟨-, -, hparsed⟩ := h
    rw [Predicate.eq_ofText_of_not_parsed hparsed]
    exact Predicate.faithful_ofText p.source
  | _ => trivial

theorem ReadFrom.uncached_eq {t : Text} {s : Segment} (h : s.ReadFrom t) : s.uncached = s := by
  cases s with
  | filter name p =>
    obtain ⟨-, -, hparsed⟩ := h
    exact congrArg (filter name) (Predicate.eq_ofText_of_not_parsed hparsed).symm
  | _ => rfl

theorem uncached_ofText (t : Text) : (ofText t).uncached = ofText t :=
  (readFrom_ofText t).uncached_eq

theorem Faithful.force {s : Segment} (h : s.Faithful) : s.force.Faithful := by
  cases s with
  | filter name p => exact Predicate.Faithful.force h
  | _ => trivial

theorem uncached_force (s : Segment) : s.force.uncached = s.uncached := by cases s <;> rfl

theorem force_force (s : Segment) : s.force.force = s.force := by cases s <;> rfl

theorem isParsed?_force {s : Segment} (h : s.isParsed? = some true) :
    s.force.isParsed? = some true := by
  cases s with
  | filter name p => rfl
  | _ => cases h

theorem apply_uncached {s : Segment} (h : s.Faithful) (n : Nat) (v : Value) :
    s.uncached.apply n v = s.apply n v := by
  cases s with
  | filter name p =>
    simp only [uncached, apply]
    rw [Predicate.Faithful.chain_uncached h]
  | _ => rfl

end Segment

/-! ## Forcing some segments -/

/-- The same segments, in which the predicates of some more have been parsed. -/
inductive Forced : List Segment → List Segment → Prop where
  | nil : Forced [] []
  | keep {ss ss' : List Segment} (s : Segment) : Forced ss ss' → Forced (s :: ss) (s :: ss')
  | force {ss ss' : List Segment} (s : Segment) : Forced ss ss' → Forced (s :: ss) (s.force :: ss')

namespace Forced

theorem refl : ∀ ss : List Segment, Forced ss ss
  | [] => nil
  | s :: ss => keep s (refl ss)

theorem trans {ss ts us : List Segment} (h : Forced ss ts) (h' : Forced ts us) : Forced ss us := by
  induction h generalizing us with
  | nil => exact h'
  | keep s _ ih =>
    cases h' with
    | keep _ h' => exact keep s (ih h')
    | force _ h' => exact force s (ih h')
  | force s _ ih =>
    cases h' with
    | keep _ h' => exact force s (ih h')
    | force _ h' =>
      rw [Segment.force_force]
      exact force s (ih h')

theorem map_uncached {ss ss' : List Segment} (h : Forced ss ss') :
    ss'.map Segment.uncached = ss.map Segment.uncached := by
  induction h with
  | nil => rfl
  | keep s _ ih => simp only [List.map_cons, ih]
  | force s _ ih => simp only [List.map_cons, ih, Segment.uncached_force]

theorem faithful {ss ss' : List Segment} (h : Forced ss ss') (hs : ∀ s ∈ ss, s.Faithful) :
    ∀ s ∈ ss', s.Faithful := by
  induction h with
  | nil => exact hs
  | keep s _ ih =>
    rw [List.forall_mem_cons] at hs ⊢
    exact ⟨hs.1, ih hs.2⟩
  | force s _ ih =>
    rw [List.forall_mem_cons] at hs ⊢
    exact ⟨hs.1.force, ih hs.2⟩

/-- No predicate that has been parsed becomes unparsed. -/
theorem parsed {ss ss' : List Segment} (h : Forced ss ss') {i : Nat}
    (hi : (ss.map Segment.isParsed?)[i]? = some (some true)) :
    (ss'.map Segment.isParsed?)[i]? = some (some true) := by
  induction h generalizing i with
  | nil => exact hi
  | keep s _ ih =>
    cases i with
    | zero => exact hi
    | succ i => exact ih hi
  | force s _ ih =>
    cases i with
    | zero =>
      have hs : s.isParsed? = some true := by simpa using hi
      simpa using Segment.isParsed?_force hs
    | succ i => exact ih hi

theorem map_force : ∀ ss : List Segment, Forced ss (ss.map Segment.force)
  | [] => nil
  | s :: ss => force s (map_force ss)

theorem modify_force : ∀ (ss : List Segment) (i : Nat), Forced ss (ss.modify i Segment.force)
  | [], i => by cases i <;> exact nil
  | s :: ss, 0 => force s (refl ss)
  | s :: ss, i + 1 => keep s (modify_force ss i)

/-- A run parses the predicates of the segments that it reaches. -/
theorem run (n : Nat) (ss : List Segment) (v : Option Value) :
    Forced ss (runSegments n ss v).segments := by
  induction ss generalizing n v with
  | nil => exact nil
  | cons s ss ih =>
    cases v with
    | none => exact refl _
    | some v =>
      simp only [runSegments]
      cases s.apply n v with
      | error e => exact force s (refl ss)
      | ok w => exact force s (ih (n + 1) w)

end Forced

/-! ## Results and explanations -/

theorem Run.result_uncached {ss : List Segment} (h : ∀ s ∈ ss, s.Faithful) (n : Nat)
    (v : Option Value) :
    (runSegments n (ss.map Segment.uncached) v).result = (runSegments n ss v).result := by
  induction ss generalizing n v with
  | nil => rfl
  | cons s ss ih =>
    rw [List.forall_mem_cons] at h
    cases v with
    | none => rfl
    | some v =>
      rw [List.map_cons, result_cons, result_cons, Segment.apply_uncached h.1]
      cases s.apply n v with
      | error e => rfl
      | ok w => exact ih h.2 (n + 1) w

namespace Explain

theorem segmentLines_uncached {s : Segment} (h : s.Faithful) (p : Palette) (n : Nat) :
    segmentLines p n s.uncached = segmentLines p n s := by
  cases s with
  | filter name pred =>
    simp only [Segment.uncached, segmentLines, predicateLines]
    rw [Predicate.Faithful.chain_uncached h]
    rfl
  | _ => rfl

theorem linesFrom_uncached {ss : List Segment} (h : ∀ s ∈ ss, s.Faithful) (p : Palette) (n : Nat) :
    linesFrom p n (ss.map Segment.uncached) = linesFrom p n ss := by
  induction ss generalizing n with
  | nil => rfl
  | cons s ss ih =>
    rw [List.forall_mem_cons] at h
    simp only [List.map_cons, linesFrom, segmentLines_uncached h.1, ih h.2]

end Explain

/-! ## Queries -/

namespace Query

/-- As compiled from its source, but for predicates that have been parsed. -/
structure Faithful (q : Query) : Prop where
  compiled : Query.compile q.source = .ok q.uncached
  segments : ∀ s ∈ q.segments, s.Faithful

/-- The same query, in which some more predicates have been parsed. -/
structure Grows (q q' : Query) : Prop where
  source : q'.source = q.source
  segments : Forced q.segments q'.segments

theorem Grows.refl (q : Query) : q.Grows q := ⟨rfl, .refl _⟩

theorem Grows.trans {q r r' : Query} (h : q.Grows r) (h' : r.Grows r') : q.Grows r' :=
  ⟨h'.source.trans h.source, h.segments.trans h'.segments⟩

theorem Grows.uncached {q q' : Query} (h : q.Grows q') : q'.uncached = q.uncached := by
  simp only [Query.uncached, h.source, h.segments.map_uncached]

theorem Grows.faithful {q q' : Query} (h : q.Grows q') (hq : q.Faithful) : q'.Faithful where
  compiled := by
    rw [h.source, h.uncached]
    exact hq.compiled
  segments := h.segments.faithful hq.segments

theorem uncached_of_compile {t : Text} {q : Query} (h : Query.compile t = .ok q) :
    q.uncached = q := by
  rw [(compile_eq_ok_iff.mp h).2]
  simp [uncached, segmentsOf, Segment.uncached_ofText]

theorem exists_piece_of_compile {t : Text} {q : Query} {s : Segment} (h : Query.compile t = .ok q)
    (hs : s ∈ q.segments) : ∃ piece ∈ pieces t, s.ReadFrom piece := by
  rw [segments_of_compile h] at hs
  obtain ⟨piece, hpiece, rfl⟩ := List.mem_map.mp hs
  exact ⟨piece, hpiece, Segment.readFrom_ofText piece⟩

theorem faithful_of_compile {t : Text} {q : Query} (h : Query.compile t = .ok q) : q.Faithful where
  compiled := by
    rw [source_of_compile h, uncached_of_compile h]
    exact h
  segments s hs := by
    obtain ⟨piece, -, hread⟩ := exists_piece_of_compile h hs
    exact hread.faithful

theorem Faithful.exists_piece {q : Query} (hq : q.Faithful) {s : Segment} (hs : s ∈ q.segments) :
    ∃ piece ∈ pieces q.source, s.uncached.ReadFrom piece :=
  exists_piece_of_compile hq.compiled (List.mem_map_of_mem hs)

theorem grows_execute (q : Query) (d : Value) : q.Grows (q.execute d).query := ⟨rfl, .run _ _ _⟩

theorem grows_explain (q : Query) (p : Palette) : q.Grows (q.explain p).query :=
  ⟨rfl, .map_force _⟩

theorem Faithful.result_uncached {q : Query} (h : q.Faithful) (d : Value) :
    (q.uncached.execute d).result = (q.execute d).result :=
  Run.result_uncached h.segments 0 (some d)

theorem Faithful.explain_uncached {q : Query} (h : q.Faithful) (p : Palette) :
    (q.uncached.explain p).text = (q.explain p).text := by
  simp only [explain, uncached, Explain.linesFrom_uncached h.segments]

end Query

end DotQuery
