import DotQuery.Double.Decimal
import DotQuery.Proofs.Double.Rounding

/-!
# Decimal numbers that read back

The shortest digits of a double round to that double (`rank_shortest`): each hit on a grid does, and
so does the exact decimal number that is left when no grid has one. A number of a double can be
written without an exponent, since none above 400 is finite (`decimalRank_shift`).
-/

namespace DotQuery.Double

variable {rank : Nat} {x : Decimal}

theorem roundRatio_zero (d : Nat) : roundRatio 0 d = 0 := by
  rw [roundRatio, Nat.zero_mul, roundUnits_eq, Nat.zero_div, nearestQuotient, Nat.zero_div,
    Nat.zero_mod]
  split <;> rfl

theorem decimalRank_zero (exponent : Int) : decimalRank 0 exponent = 0 := if_pos rfl

theorem decimalRank_whole (n : Nat) : decimalRank n 0 = roundRatio n 1 := by
  by_cases hn : n = 0
  · rw [hn, decimalRank_zero, roundRatio_zero]
  · have hlog : ¬ (0 + (n.log2 : Int) < -400) := by omega
    rw [decimalRank, if_neg hn, if_neg (by decide), if_neg hlog, if_pos (Int.le_refl 0),
      Int.toNat_zero, Nat.pow_eq, Nat.pow_zero, Nat.mul_one]

theorem ofInt_natCast (n : Nat) : ofInt n = ofNat n := by
  rw [ofInt, Int.natAbs_natCast, decide_eq_false (Int.not_lt.mpr (Int.natCast_nonneg n)), ofNat]

/-- A finite number with an exponent that is not negative is written with zeros instead. -/
theorem decimalRank_shift {n : Nat} {exponent : Int} (h : 0 ≤ exponent)
    (hfinite : decimalRank n exponent < infinityRank) :
    decimalRank (n * 10 ^ exponent.toNat) 0 = decimalRank n exponent := by
  by_cases hn : n = 0
  · rw [hn, Nat.zero_mul, decimalRank_zero, decimalRank_zero]
  · have hlog : ¬ (exponent + (n.log2 : Int) < -400) := by omega
    have hexponent : ¬ 400 < exponent := by
      intro hlarge
      rw [decimalRank, if_neg hn, if_pos hlarge] at hfinite
      exact Nat.lt_irrefl _ hfinite
    rw [decimalRank_whole, decimalRank, if_neg hn, if_neg hexponent, if_neg hlog, if_pos h,
      Nat.pow_eq]

/-! ## Shortest digits -/

theorem rank_of_hitOnGrid {tie : Tie} {exponent : Int} (h : hitOnGrid tie rank exponent = some x) :
    x.rank = rank := by
  unfold hitOnGrid at h
  dsimp only at h
  split at h
  · next hbelow habove =>
    cases h
    cases tie <;> dsimp only <;> split
    · exact of_decide_eq_true habove
    · exact of_decide_eq_true hbelow
    · exact of_decide_eq_true habove
    · exact of_decide_eq_true hbelow
  · next hbelow _ =>
    cases h
    exact of_decide_eq_true hbelow
  · next _ habove =>
    cases h
    exact of_decide_eq_true habove
  · cases h

/-- A power of five has more than twice as many binary digits as its exponent, so a number with as
many places as the power has is not settled as zero. -/
theorem decimalRank_mul_five_pow {n k : Nat} (hn : n ≠ 0) (hk : 0 < k) :
    decimalRank (n * 5 ^ k) (-(k : Int)) = roundRatio (n * 5 ^ k) (10 ^ k) := by
  have hpow : 2 ^ k ≤ n * 5 ^ k :=
    (Nat.pow_le_pow_left (by decide) k).trans (Nat.le_mul_of_pos_left _ (by omega))
  have hne : n * 5 ^ k ≠ 0 := by
    have := Nat.two_pow_pos k
    omega
  have hlog : k ≤ (n * 5 ^ k).log2 := (Nat.le_log2 hne).mpr hpow
  rw [decimalRank, if_neg hne, if_neg (by omega), if_neg (by omega), if_neg (by omega), neg_neg,
    Int.toNat_natCast, Nat.pow_eq]

theorem exactDecimal_eq (rank : Nat) :
    exactDecimal rank = ⟨units rank * 5 ^ unitPlaces, -(unitPlaces : Int)⟩ := by
  have hpow : Nat.pow 5 1074 = 5 ^ unitPlaces := by decide +kernel
  rw [exactDecimal, hpow]
  rfl

theorem rank_exactDecimal (h : rank ≠ 0) : (exactDecimal rank).rank = rank := by
  have hunits : units rank ≠ 0 := by
    intro hzero
    have hround := roundUnits_units rank
    rw [hzero] at hround
    exact h hround.symm
  have htenth : units rank * 5 ^ unitPlaces * unitsPerOne = units rank * 10 ^ unitPlaces := by
    rw [unitsPerOne_eq, Nat.mul_assoc, ← Nat.mul_pow]
  have hten : 0 < 10 ^ unitPlaces := Nat.pow_pos (by decide)
  calc (exactDecimal rank).rank
      = roundRatio (units rank * 5 ^ unitPlaces) (10 ^ unitPlaces) := by
        rw [exactDecimal_eq]
        exact decimalRank_mul_five_pow hunits (by decide)
    _ = roundUnits (units rank * 10 ^ unitPlaces) (1 * 10 ^ unitPlaces) := by
        rw [roundRatio, htenth, Nat.one_mul]
    _ = rank := by rw [roundUnits_mul_right hten, roundUnits_units]

theorem rank_firstHit (tie : Tie) (h : rank ≠ 0) (fuel : Nat) (exponent : Int) :
    (firstHit tie rank fuel exponent).rank = rank := by
  induction fuel generalizing exponent with
  | zero => exact rank_exactDecimal h
  | succ fuel ih =>
    unfold firstHit
    split
    · next x hx => exact rank_of_hitOnGrid hx
    · exact ih (exponent - 1)

theorem rank_shortest (tie : Tie) (rank : Nat) : (shortest tie rank).rank = rank := by
  unfold shortest
  split
  · next h => rw [Decimal.rank, decimalRank_zero, h]
  · next h => exact rank_firstHit tie h 128 _

end DotQuery.Double
