import DotQuery.Proofs.Text.Pieces
import DotQuery.Query.Compile

/-!
# Pieces of joined texts

A text whose brackets are closed leaves the bracket scan at depth 0, so a dot behind it separates
and the scan starts afresh: the pieces of `t ++ '.' :: u` are those of `t`, then those of `u`.
`compile_eq_ok_iff` says which texts compile, and to what.
-/

namespace DotQuery

/-! ## The scan -/

theorem scanDepth_append (depth : Nat) (t u : Text) :
    scanDepth depth (t ++ u) = scanDepth (scanDepth depth t) u := List.foldl_append

theorem scanDepth_join {t u : Text} (ht : scanDepth 0 t = 0) (hu : scanDepth 0 u = 0) :
    scanDepth 0 (t ++ '.' :: u) = 0 := by
  rw [scanDepth_append, ht]
  exact hu

/-! ## Pieces -/

theorem piecesFrom_ne_nil (depth : Nat) (t : Text) : piecesFrom depth t ≠ [] := by
  cases t with
  | nil => exact List.cons_ne_nil _ _
  | cons c t =>
    unfold piecesFrom
    split
    · exact List.cons_ne_nil _ _
    · exact Text.consHead_ne_nil _ _

theorem piecesFrom_join {depth : Nat} {t : Text} (h : scanDepth depth t = 0) (u : Text) :
    piecesFrom depth (t ++ '.' :: u) = piecesFrom depth t ++ piecesFrom 0 u := by
  induction t generalizing depth with
  | nil =>
    have hd : depth = 0 := h
    subst hd
    rfl
  | cons c t ih =>
    simp only [List.cons_append, piecesFrom]
    split
    · next hc =>
      obtain ⟨rfl, rfl⟩ := hc
      have hrest : piecesFrom 0 (t ++ '.' :: u) = piecesFrom 0 t ++ piecesFrom 0 u := ih h
      rw [hrest]
      rfl
    · rw [ih h, Text.consHead_append c (piecesFrom_ne_nil _ _)]

theorem pieces_of_closed {t : Text} (h : scanDepth 0 t = 0) : pieces t = piecesFrom 0 t := if_pos h

theorem pieces_join {t u : Text} (ht : scanDepth 0 t = 0) (hu : scanDepth 0 u = 0) :
    pieces (t ++ '.' :: u) = pieces t ++ pieces u := by
  rw [pieces_of_closed (scanDepth_join ht hu), pieces_of_closed ht, pieces_of_closed hu,
    piecesFrom_join ht]

theorem pieces_ne_nil (t : Text) : pieces t ≠ [] := by
  unfold pieces
  split
  · exact piecesFrom_ne_nil _ _
  · exact Text.splitOn_ne_nil _ _

/-! ## Compiling -/

theorem segmentsOf_ne_nil (t : Text) : segmentsOf t ≠ [] := by
  simp [segmentsOf, pieces_ne_nil]

theorem segmentsOf_join {t u : Text} (ht : scanDepth 0 t = 0) (hu : scanDepth 0 u = 0) :
    segmentsOf (t ++ '.' :: u) = segmentsOf t ++ segmentsOf u := by
  rw [segmentsOf, pieces_join ht hu, List.map_append]
  rfl

theorem unnamedFilterAfterFirst?_eq_none_iff {segments : List Segment} :
    unnamedFilterAfterFirst? segments = none ↔
      ∀ s ∈ segments.drop 1, s.isUnnamedFilter = false := by
  simp [unnamedFilterAfterFirst?]

theorem Query.compile_eq_ok_iff {t : Text} {q : Query} :
    Query.compile t = .ok q ↔
      (∀ s ∈ (segmentsOf t).drop 1, s.isUnnamedFilter = false) ∧ q = ⟨t, segmentsOf t⟩ := by
  rw [← unnamedFilterAfterFirst?_eq_none_iff, Query.compile]
  cases unnamedFilterAfterFirst? (segmentsOf t) with
  | none => simp [eq_comm]
  | some position => simp

theorem Query.source_of_compile {t : Text} {q : Query} (h : Query.compile t = .ok q) :
    q.source = t := by
  rw [(compile_eq_ok_iff.mp h).2]

theorem Query.segments_of_compile {t : Text} {q : Query} (h : Query.compile t = .ok q) :
    q.segments = segmentsOf t := by
  rw [(compile_eq_ok_iff.mp h).2]

end DotQuery
