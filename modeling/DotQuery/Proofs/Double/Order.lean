import DotQuery.Double.Basic

/-!
# The order of doubles

All doubles but NaN have a place on one line, and comparisons compare places, so they are an order
there: of two such doubles one is less than the other or both are equal (`order_count`). A
comparison with NaN never holds (`compareWith_of_isNan`).
-/

namespace DotQuery.Double

variable {x y : Double}

theorem isNan_eq_false_iff : x.isNan = false ↔ ∃ i, x.place? = some i := by
  rw [isNan, Option.isNone_eq_false_iff, Option.isSome_iff_exists]

theorem place?_of_isNan (h : x.isNan = true) : x.place? = none := Option.isNone_iff_eq_none.mp h

theorem isNan_eq_false_of_ne (h : x ≠ nan) : x.isNan = false := by
  cases x with
  | nan => exact absurd rfl h
  | infinite negative => rfl
  | finite x => rfl

theorem ofRank_ne_nan (negative : Bool) (rank : Nat) : ofRank negative rank ≠ nan := by
  unfold ofRank
  split <;> nofun

theorem isNan_ofRank (negative : Bool) (rank : Nat) : (ofRank negative rank).isNan = false :=
  isNan_eq_false_of_ne (ofRank_ne_nan negative rank)

/-! ## Comparisons -/

theorem compareWith_of_isNan (holds : Int → Int → Bool) (h : x.isNan = true ∨ y.isNan = true) :
    compareWith holds x y = false := by
  unfold compareWith
  rcases h with h | h
  · rw [place?_of_isNan h]
  · rw [place?_of_isNan h]
    cases x.place? <;> rfl

/-- A comparison of doubles with places compares the places. -/
theorem compareWith_of_place {holds : Int → Int → Bool} {i j : Int} (hx : x.place? = some i)
    (hy : y.place? = some j) : compareWith holds x y = holds i j := by
  rw [compareWith, hx, hy]

theorem eq_self (h : x.isNan = false) : x.eq x = true := by
  obtain ⟨i, hi⟩ := isNan_eq_false_iff.mp h
  rw [eq, compareWith_of_place hi hi, decide_eq_true rfl]

/-- Both orders at once, also for NaN. -/
theorem eq_eq_le_and_le (x y : Double) : x.eq y = (y.le x && x.le y) := by
  unfold eq le compareWith
  cases x.place? with
  | none => cases y.place? <;> rfl
  | some i =>
    cases y.place? with
    | none => rfl
    | some j =>
      rw [← Bool.decide_and, decide_eq_decide]
      omega

theorem le_eq_not_lt (hx : x.isNan = false) (hy : y.isNan = false) : x.le y = !y.lt x := by
  obtain ⟨i, hi⟩ := isNan_eq_false_iff.mp hx
  obtain ⟨j, hj⟩ := isNan_eq_false_iff.mp hy
  rw [le, lt, compareWith_of_place hi hj, compareWith_of_place hj hi, ← decide_not,
    decide_eq_decide]
  omega

/-- Of two doubles with places exactly one is less, or none is and they are equal. -/
theorem order_count (hx : x.isNan = false) (hy : y.isNan = false) :
    [x.lt y, y.lt x, y.le x && x.le y].count true = 1 := by
  obtain ⟨i, hi⟩ := isNan_eq_false_iff.mp hx
  obtain ⟨j, hj⟩ := isNan_eq_false_iff.mp hy
  simp only [le, lt, compareWith_of_place hi hj, compareWith_of_place hj hi]
  rcases Int.lt_trichotomy i j with h | h | h
  · simp [h, Int.lt_asymm h, Int.not_le.mpr h]
  · simp [h]
  · simp [h, Int.lt_asymm h, Int.not_le.mpr h]

theorem place?_ofRank {rank : Nat} (h : rank < infinityRank) :
    (ofRank false rank).place? = some (rank : Int) := by
  rw [ofRank, dif_pos h]
  rfl

theorem eq_ofRank_iff {i j : Nat} (hi : i < infinityRank) (hj : j < infinityRank) :
    (ofRank false i).eq (ofRank false j) = true ↔ i = j := by
  rw [eq, compareWith_of_place (place?_ofRank hi) (place?_ofRank hj), decide_eq_true_iff,
    Int.ofNat_inj]

end DotQuery.Double
