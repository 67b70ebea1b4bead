import Mathlib.Data.List.Nodup
import DotQuery.Proofs.Text.Cut
import DotQuery.Proofs.Text.Pieces
import DotQuery.Query.Compile

/-!
# The projection form

A text between braces is a projection if it has a comma and no closing brace (`ProjectionForm`). The
names of the projection are those between the commas, without blanks around them, each once and in
the order in which they come first (`FirstOccurrencesOf`).
-/

namespace DotQuery

/-- Braces around a text that has a comma and no closing brace. -/
structure ProjectionForm (t inner : Text) : Prop where
  text : t = '\x7b' :: inner ++ ['\x7d']
  closing : '\x7d' ∉ inner
  comma : ',' ∈ inner

/-- The members of a list, each once, in the order in which they come first. -/
structure FirstOccurrencesOf (names ts : List Text) : Prop where
  mem_iff : ∀ t, t ∈ names ↔ t ∈ ts
  ordered : names.Pairwise fun s t => ts.idxOf s < ts.idxOf t

theorem FirstOccurrencesOf.nodup {names ts : List Text} (h : FirstOccurrencesOf names ts) :
    names.Nodup :=
  h.ordered.imp fun hlt he => Nat.ne_of_lt hlt (congrArg ts.idxOf he)

theorem firstOccurrencesOf_firstOccurrences (ts : List Text) :
    FirstOccurrencesOf (firstOccurrences ts) ts := by
  induction ts with
  | nil => exact ⟨fun t => Iff.rfl, List.Pairwise.nil⟩
  | cons s ts ih =>
    have hlater : ∀ t, t ≠ s → (s :: ts).idxOf t = ts.idxOf t + 1 := fun t h =>
      List.idxOf_cons_ne ts (Ne.symm h)
    have hne : ∀ t ∈ (firstOccurrences ts).filter (· ≠ s), t ≠ s := fun t ht => by
      simpa using (List.mem_filter.mp ht).2
    constructor
    · intro t
      by_cases h : t = s <;> simp [firstOccurrences, ih.mem_iff, h]
    · rw [firstOccurrences, List.pairwise_cons]
      constructor
      · intro t ht
        rw [List.idxOf_cons_self, hlater t (hne t ht)]
        exact Nat.succ_pos _
      · refine (ih.ordered.filter _).imp_of_mem fun hr ht hlt => ?_
        rw [hlater _ (hne _ hr), hlater _ (hne _ ht)]
        exact Nat.succ_lt_succ hlt

theorem firstOccurrences_of_nodup {ts : List Text} (h : ts.Nodup) : firstOccurrences ts = ts := by
  induction ts with
  | nil => rfl
  | cons t ts ih =>
    rw [List.nodup_cons] at h
    rw [firstOccurrences, ih h.2, List.filter_eq_self.mpr]
    intro s hs
    simpa using ne_of_mem_of_not_mem hs h.1

theorem projectionNames?_eq_some_iff {t : Text} {names : List Text} :
    projectionNames? t = some names ↔ ∃ inner, ProjectionForm t inner ∧
      names = firstOccurrences ((Text.splitOn ',' inner).map Text.trim) := by
  constructor
  · intro h
    unfold projectionNames? at h
    split at h
    · next rest =>
      split at h
      · next hlast =>
        split at h
        · cases h
        · next hinner =>
          cases h
          rw [not_or, not_not] at hinner
          have hrest : rest = rest.dropLast ++ ['\x7d'] :=
            (List.dropLast_append_getLast? _ hlast).symm
          exact ⟨rest.dropLast, ⟨congrArg _ hrest, hinner.1, hinner.2⟩, rfl⟩
      · cases h
    · cases h
  · rintro ⟨inner, ⟨rfl, hclosing, hcomma⟩, rfl⟩
    simp [projectionNames?, hclosing, hcomma]

theorem projectionNames?_eq_none_iff {t : Text} :
    projectionNames? t = none ↔ ∀ inner, ¬ ProjectionForm t inner := by
  rw [Option.eq_none_iff_forall_ne_some]
  constructor
  · intro h inner hinner
    exact h _ (projectionNames?_eq_some_iff.mpr ⟨inner, hinner, rfl⟩)
  · intro h names hnames
    obtain ⟨inner, hinner, -⟩ := projectionNames?_eq_some_iff.mp hnames
    exact h inner hinner

/-- A name between the commas of a projection. -/
structure ProjectionName (name : Text) : Prop where
  trimmed : name.trim = name
  comma : ',' ∉ name
  closing : '\x7d' ∉ name

theorem ProjectionForm.projectionName {t inner name : Text} (h : ProjectionForm t inner)
    (hname : name ∈ (Text.splitOn ',' inner).map Text.trim) : ProjectionName name := by
  obtain ⟨piece, hpiece, rfl⟩ := List.mem_map.mp hname
  have hsub : piece.trim ⊆ piece := (Text.trim_isInfix piece).subset
  exact ⟨Text.trim_trim piece, fun hc => Text.not_mem_of_mem_splitOn hpiece (hsub hc),
    fun hc => h.closing (Text.mem_of_mem_splitOn hpiece (hsub hc))⟩

end DotQuery
