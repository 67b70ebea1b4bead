import DotQuery.Proofs.Query.Pieces

/-!
# Dots that separate

The pieces of a query joined by dots are the query again, so a dot that `pieces` cuts at stands
between two runs of pieces (`CutBetween`). Where all brackets are closed, these are the dots outside
brackets, and no piece has such a dot or leaves a bracket open; where a bracket stays open, they are
all dots (`pieces_cut_at_dots`).
-/

namespace DotQuery

/-- Some of the pieces, joined, are the text before a dot, and the others the text after it. -/
def CutBetween (ps : List Text) (before after : Text) : Prop :=
  ∃ qs rs, qs ≠ [] ∧ rs ≠ [] ∧ ps = qs ++ rs ∧
    Text.joinWith ['.'] qs = before ∧ Text.joinWith ['.'] rs = after

/-- Scanned from a depth, the text closes all brackets and has no dot outside of them. -/
structure Undivided (depth : Nat) (t : Text) : Prop where
  closed : scanDepth depth t = 0
  inner : ∀ u v, t = u ++ '.' :: v → 0 < scanDepth depth u

/-! ## Closed brackets -/

theorem joinWith_piecesFrom (depth : Nat) (t : Text) :
    Text.joinWith ['.'] (piecesFrom depth t) = t := by
  induction t generalizing depth with
  | nil => rfl
  | cons c t ih =>
    unfold piecesFrom
    split
    · next h =>
      rw [Text.joinWith_cons (piecesFrom_ne_nil 0 t), ih, h.1]
      rfl
    · rw [Text.joinWith_consHead _ _ (piecesFrom_ne_nil _ t), ih]

/-- The scan is at depth 0 after each run of pieces but the last. -/
theorem scanDepth_of_piecesFrom {depth : Nat} {t : Text} {qs rs : List Text} (hq : qs ≠ [])
    (hr : rs ≠ []) (h : piecesFrom depth t = qs ++ rs) :
    scanDepth depth (Text.joinWith ['.'] qs) = 0 := by
  induction t generalizing depth qs with
  | nil =>
    have hlength : 1 = qs.length + rs.length := by simpa [piecesFrom] using congrArg List.length h
    have hqs := List.length_pos_iff.mpr hq
    have hrs := List.length_pos_iff.mpr hr
    omega
  | cons c t ih =>
    obtain ⟨q, qs, rfl⟩ := List.exists_cons_of_ne_nil hq
    unfold piecesFrom at h
    split at h
    · next hc =>
      obtain ⟨rfl, rfl⟩ := hc
      obtain ⟨rfl, hrest⟩ := List.cons_eq_cons.mp h
      cases qs with
      | nil => rfl
      | cons r qs =>
        have hdepth : scanDepth 0 (Text.joinWith ['.'] (r :: qs)) = 0 :=
          ih (List.cons_ne_nil r qs) hrest
        exact hdepth
    · obtain ⟨p, ps, hps⟩ := List.exists_cons_of_ne_nil (piecesFrom_ne_nil (depthAfter depth c) t)
      rw [hps] at h
      obtain ⟨rfl, rfl⟩ := List.cons_eq_cons.mp h
      have hrest := ih (List.cons_ne_nil p qs) hps
      cases qs <;> exact hrest

theorem cutBetween_piecesFrom_iff {depth : Nat} {u v : Text} :
    CutBetween (piecesFrom depth (u ++ '.' :: v)) u v ↔ scanDepth depth u = 0 := by
  constructor
  · rintro ⟨qs, rs, hq, hr, h, rfl, rfl⟩
    exact scanDepth_of_piecesFrom hq hr h
  · intro h
    exact ⟨piecesFrom depth u, piecesFrom 0 v, piecesFrom_ne_nil _ u, piecesFrom_ne_nil _ v,
      piecesFrom_join h v, joinWith_piecesFrom _ u, joinWith_piecesFrom _ v⟩

theorem undivided_nil : Undivided 0 [] := ⟨rfl, fun u v h => by cases u <;> cases h⟩

theorem undivided_cons {depth : Nat} {c : Char} {t : Text} (hc : ¬ (c = '.' ∧ depth = 0))
    (h : Undivided (depthAfter depth c) t) : Undivided depth (c :: t) := by
  refine ⟨h.closed, fun u v huv => ?_⟩
  cases u with
  | nil =>
    obtain ⟨rfl, -⟩ := List.cons_eq_cons.mp huv
    exact Nat.pos_of_ne_zero fun hdepth => hc ⟨rfl, hdepth⟩
  | cons d u =>
    obtain ⟨rfl, hrest⟩ := List.cons_eq_cons.mp huv
    exact h.inner u v hrest

/-- The first piece is scanned from the depth of the text, the others from depth 0. -/
theorem undivided_of_piecesFrom {depth : Nat} {t p : Text} {ps : List Text}
    (ht : scanDepth depth t = 0) (h : piecesFrom depth t = p :: ps) :
    Undivided depth p ∧ ∀ q ∈ ps, Undivided 0 q := by
  induction t generalizing depth p ps with
  | nil =>
    have hdepth : depth = 0 := ht
    obtain ⟨rfl, rfl⟩ := List.cons_eq_cons.mp h
    exact ⟨hdepth ▸ undivided_nil, List.forall_mem_nil _⟩
  | cons c t ih =>
    unfold piecesFrom at h
    split at h
    · next hc =>
      obtain ⟨rfl, rfl⟩ := hc
      obtain ⟨rfl, rfl⟩ := List.cons_eq_cons.mp h
      obtain ⟨q, qs, hqs⟩ := List.exists_cons_of_ne_nil (piecesFrom_ne_nil 0 t)
      rw [hqs, List.forall_mem_cons]
      exact ⟨undivided_nil, ih ht hqs⟩
    · next hc =>
      obtain ⟨q, qs, hqs⟩ := List.exists_cons_of_ne_nil (piecesFrom_ne_nil (depthAfter depth c) t)
      rw [hqs] at h
      obtain ⟨rfl, rfl⟩ := List.cons_eq_cons.mp h
      obtain ⟨hq, hqs⟩ := ih ht hqs
      exact ⟨undivided_cons hc hq, hqs⟩

theorem undivided_of_mem_pieces {t p : Text} (ht : scanDepth 0 t = 0) (hp : p ∈ pieces t) :
    Undivided 0 p := by
  rw [pieces_of_closed ht] at hp
  obtain ⟨q, qs, hqs⟩ := List.exists_cons_of_ne_nil (piecesFrom_ne_nil 0 t)
  rw [hqs] at hp
  obtain ⟨hq, hrest⟩ := undivided_of_piecesFrom ht hqs
  rcases List.mem_cons.mp hp with rfl | hp
  · exact hq
  · exact hrest p hp

/-! ## All texts -/

theorem pieces_of_open {t : Text} (h : 0 < scanDepth 0 t) : pieces t = t.splitOn '.' :=
  if_neg (Nat.ne_of_gt h)

theorem joinWith_pieces (t : Text) : Text.joinWith ['.'] (pieces t) = t := by
  unfold pieces
  split
  · exact joinWith_piecesFrom 0 t
  · exact Text.joinWith_splitOn '.' t

theorem subset_of_mem_pieces {t p : Text} (h : p ∈ pieces t) : p ⊆ t := by
  rw [← joinWith_pieces t]
  exact Text.subset_joinWith _ h

theorem cutBetween_splitOn (u v : Text) : CutBetween ((u ++ '.' :: v).splitOn '.') u v :=
  ⟨u.splitOn '.', v.splitOn '.', Text.splitOn_ne_nil '.' u, Text.splitOn_ne_nil '.' v,
    Text.splitOn_append_sep '.' u v, Text.joinWith_splitOn '.' u, Text.joinWith_splitOn '.' v⟩

theorem pieces_cut_at_dots (t : Text) :
    pieces t ≠ [] ∧ Text.joinWith ['.'] (pieces t) = t ∧
      (scanDepth 0 t = 0 →
        (∀ u v, t = u ++ '.' :: v → (CutBetween (pieces t) u v ↔ scanDepth 0 u = 0)) ∧
          ∀ p ∈ pieces t, Undivided 0 p) ∧
      (0 < scanDepth 0 t →
        (∀ u v, t = u ++ '.' :: v → CutBetween (pieces t) u v) ∧ ∀ p ∈ pieces t, '.' ∉ p) := by
  refine ⟨pieces_ne_nil t, joinWith_pieces t, fun ht => ?_, fun ht => ?_⟩
  · refine ⟨fun u v huv => ?_, fun p hp => undivided_of_mem_pieces ht hp⟩
    rw [pieces_of_closed ht, huv]
    exact cutBetween_piecesFrom_iff
  · rw [pieces_of_open ht]
    refine ⟨fun u v huv => ?_, fun p hp => Text.not_mem_of_mem_splitOn hp⟩
    rw [huv]
    exact cutBetween_splitOn u v

/-- A closing bracket without an open one is text, and so is the second opening one. -/
example : pieces "a].b[[x.y].c].".toList = ["a]".toList, "b[[x.y].c]".toList, []] := by decide

end DotQuery
