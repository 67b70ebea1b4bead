import DotQuery.Proofs.Query.Classification
import DotQuery.Proofs.Query.Pieces

/-!
# What compiling establishes

Compiling fails exactly if a segment after the first is a filter without a name, and reports the
first of these (`FirstUnnamed`). A query that it gives has one segment for each piece of the text,
read from that piece, and only the first may be a filter without a name (`Query.CompiledFrom`).
-/

namespace DotQuery

/-- The first filter without a name after the first segment is at `i`. -/
structure FirstUnnamed (ss : List Segment) (i : Nat) : Prop where
  later : 1 ≤ i
  unnamed : ∃ p, ss[i]? = some (.filter none p)
  first : ∀ j p, 1 ≤ j → j < i → ss[j]? ≠ some (.filter none p)

/-- What holds of a query that a text has been compiled to. -/
structure Query.CompiledFrom (q : Query) (t : Text) : Prop where
  source : q.source = t
  segments : q.segments = (pieces t).map Segment.ofText
  nonempty : q.segments ≠ []
  read : List.Forall₂ (fun piece s => s.ReadFrom piece) (pieces t) q.segments
  unnamed : ∀ i p, q.segments[i]? = some (.filter none p) → i = 0

theorem Segment.isUnnamedFilter_iff {s : Segment} :
    s.isUnnamedFilter = true ↔ ∃ p, s = filter none p := by
  constructor
  · intro h
    unfold isUnnamedFilter at h
    split at h
    · next p => exact ⟨p, rfl⟩
    · cases h
  · rintro ⟨p, rfl⟩
    rfl

variable {ss : List Segment} {i : Nat} {t : Text}

theorem unnamedFilterAfterFirst?_eq_some_iff :
    unnamedFilterAfterFirst? ss = some i ↔ FirstUnnamed ss i := by
  have hdrop : ∀ j, (ss.drop 1)[j]? = ss[j + 1]? := fun j => by
    rw [List.getElem?_drop, Nat.add_comm]
  rw [unnamedFilterAfterFirst?, Option.map_eq_some_iff]
  constructor
  · rintro ⟨i, hfind, rfl⟩
    obtain ⟨hi, hunnamed, hfirst⟩ := List.findIdx?_eq_some_iff_getElem.mp hfind
    obtain ⟨p, hp⟩ := Segment.isUnnamedFilter_iff.mp hunnamed
    refine ⟨Nat.succ_pos i, ⟨p, ?_⟩, fun j p hj hlt hget => ?_⟩
    · rw [← hdrop, List.getElem?_eq_getElem hi, hp]
    · obtain ⟨j, rfl⟩ := Nat.exists_eq_add_of_le' hj
      rw [← hdrop, List.getElem?_eq_some_iff] at hget
      obtain ⟨_, hget⟩ := hget
      exact hfirst j (Nat.lt_of_succ_lt_succ hlt) (Segment.isUnnamedFilter_iff.mpr ⟨p, hget⟩)
  · rintro ⟨hi, ⟨p, hp⟩, hfirst⟩
    obtain ⟨i, rfl⟩ := Nat.exists_eq_add_of_le' hi
    rw [← hdrop, List.getElem?_eq_some_iff] at hp
    obtain ⟨hlength, hp⟩ := hp
    refine ⟨i, List.findIdx?_eq_some_iff_getElem.mpr ⟨hlength, ?_, fun j hlt hunnamed => ?_⟩, rfl⟩
    · exact Segment.isUnnamedFilter_iff.mpr ⟨p, hp⟩
    · obtain ⟨p, hp⟩ := Segment.isUnnamedFilter_iff.mp hunnamed
      refine hfirst (j + 1) p (Nat.succ_pos j) (Nat.succ_lt_succ hlt) ?_
      rw [← hdrop, List.getElem?_eq_getElem (Nat.lt_trans hlt hlength), hp]

theorem exists_unnamedFilterAfterFirst?_iff : (∃ i, unnamedFilterAfterFirst? ss = some i) ↔
    ∃ i p, 1 ≤ i ∧ ss[i]? = some (.filter none p) := by
  constructor
  · rintro ⟨i, h⟩
    obtain ⟨hi, ⟨p, hp⟩, -⟩ := unnamedFilterAfterFirst?_eq_some_iff.mp h
    exact ⟨i, p, hi, hp⟩
  · rintro ⟨i, p, hi, hp⟩
    rw [← Option.ne_none_iff_exists', Ne, unnamedFilterAfterFirst?_eq_none_iff]
    intro hnone
    have hmem : Segment.filter none p ∈ ss.drop 1 := by
      refine List.mem_of_getElem? (i := i - 1) ?_
      rw [List.getElem?_drop, Nat.add_sub_cancel' hi, hp]
    exact Bool.noConfusion (hnone _ hmem)

theorem Query.compile_eq_error_iff {e : CompileError} :
    compile t = .error e ↔ ∃ i, e = .filterWithoutField t i ∧ FirstUnnamed (segmentsOf t) i := by
  simp only [← unnamedFilterAfterFirst?_eq_some_iff]
  unfold compile
  cases unnamedFilterAfterFirst? (segmentsOf t) with
  | none => simp
  | some i => simp [eq_comm]

theorem Query.compiledFrom_segmentsOf
    (h : ∀ i p, (segmentsOf t)[i]? = some (.filter none p) → i = 0) :
    Query.CompiledFrom ⟨t, segmentsOf t⟩ t where
  source := rfl
  segments := rfl
  nonempty := segmentsOf_ne_nil t
  read := List.forall₂_map_right_iff.mpr <|
    List.forall₂_same.mpr fun p _ => Segment.readFrom_ofText p
  unnamed := h

theorem Query.compile_exact (t : Text) :
    ((∃ e, compile t = .error e) ↔
        ∃ i p, 1 ≤ i ∧ (segmentsOf t)[i]? = some (.filter none p)) ∧
      (∀ e, compile t = .error e ↔
        ∃ i, e = .filterWithoutField t i ∧ FirstUnnamed (segmentsOf t) i) ∧
      ((¬ ∃ i p, 1 ≤ i ∧ (segmentsOf t)[i]? = some (.filter none p)) →
        ∃ q, compile t = .ok q ∧ q.CompiledFrom t) := by
  have hunnamed : (∃ e, compile t = .error e) ↔
      ∃ i p, 1 ≤ i ∧ (segmentsOf t)[i]? = some (.filter none p) := by
    rw [← exists_unnamedFilterAfterFirst?_iff]
    simp only [compile_eq_error_iff, ← unnamedFilterAfterFirst?_eq_some_iff]
    constructor
    · rintro ⟨e, i, -, h⟩
      exact ⟨i, h⟩
    · rintro ⟨i, h⟩
      exact ⟨_, i, rfl, h⟩
  refine ⟨hunnamed, fun e => compile_eq_error_iff, fun h => ?_⟩
  cases hq : compile t with
  | error e => exact absurd (hunnamed.mp ⟨e, hq⟩) h
  | ok q =>
    obtain ⟨-, rfl⟩ := compile_eq_ok_iff.mp hq
    refine ⟨_, rfl, compiledFrom_segmentsOf fun i p hp => ?_⟩
    exact Nat.eq_zero_of_not_pos fun hi => h ⟨i, p, hi, hp⟩

/-- The first segment needs no name; of the others without one the first is reported. -/
example : Query.compile "[a].b.[c].[d]".toList =
    .error (.filterWithoutField "[a].b.[c].[d]".toList 2) := by decide

end DotQuery
