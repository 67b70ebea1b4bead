import Mathlib.Tactic.Ring
import Mathlib.Tactic.SplitIfs
import DotQuery.Double.Rounding

/-!
# Rounding to doubles

A rank is a shift and a significand: `shift * binade + q` is the magnitude `q * 2 ^ shift`, where
`q` has 53 binary digits unless the shift is zero (`units_add`). Rounding chooses the shift from the
length of the quotient and rounds the quotient to a significand (`units_roundUnits`). So rounding
keeps what is a double already (`roundUnits_units`), also with less than half a unit added
(`roundUnits_mul_add`), is monotone (`roundUnits_mono`), and moves by one binade for each factor of
two (`roundUnits_mul_two_pow`).
-/

namespace DotQuery.Double

variable {n m d e k q shift : Nat}

theorem binade_eq : binade = 4503599627370496 := rfl

theorem binade_pos : 0 < binade := Nat.two_pow_pos 52

/-- The binary places of the smallest magnitude. -/
def unitPlaces : Nat := 1074

theorem unitsPerOne_eq : unitsPerOne = 2 ^ unitPlaces := by decide +kernel

theorem unitsPerOne_pos : 0 < unitsPerOne := by
  rw [unitsPerOne_eq]
  exact Nat.two_pow_pos unitPlaces

/-! ## Quotients -/

theorem nearestQuotient_bounds (n d : Nat) :
    n / d ≤ nearestQuotient n d ∧ nearestQuotient n d ≤ n / d + 1 := by
  unfold nearestQuotient
  dsimp only
  split
  · omega
  · split <;> omega

/-- Less than half of the divisor is left over. -/
theorem nearestQuotient_mul_add (h : 2 * e < d) (q : Nat) : nearestQuotient (q * d + e) d = q := by
  have hd : 0 < d := by omega
  have hdiv : (q * d + e) / d = q := by
    rw [Nat.mul_comm, Nat.mul_add_div hd, Nat.div_eq_of_lt (by omega), Nat.add_zero]
  have hmod : (q * d + e) % d = e := by
    rw [Nat.mul_comm, Nat.mul_add_mod, Nat.mod_eq_of_lt (by omega)]
  rw [nearestQuotient, hdiv, hmod]
  exact if_pos h

theorem nearestQuotient_mul_right (hk : 0 < k) (n d : Nat) :
    nearestQuotient (n * k) (d * k) = nearestQuotient n d := by
  have hlt (a b : Nat) : a * k < b * k ↔ a < b := Nat.mul_lt_mul_right hk
  simp only [nearestQuotient, Nat.mul_div_mul_right _ _ hk, Nat.mul_mod_mul_right, ← Nat.mul_assoc,
    hlt]

theorem nearestQuotient_mono (h : n ≤ m) (d : Nat) : nearestQuotient n d ≤ nearestQuotient m d := by
  rcases Nat.eq_or_lt_of_le (Nat.div_le_div_right (c := d) h) with hq | hq
  · -- the same quotient, so the remainders are in order
    have hn := Nat.div_add_mod n d
    have hm := Nat.div_add_mod m d
    rw [← hq] at hm
    simp only [nearestQuotient, ← hq]
    split_ifs <;> omega
  · have hn := (nearestQuotient_bounds n d).2
    have hm := (nearestQuotient_bounds m d).1
    omega

/-! ## Shifts and significands -/

/-- The shift of the magnitudes whose whole part is `q`. -/
def shiftOf (q : Nat) : Nat := q.log2 - 52

theorem roundUnits_eq (n d : Nat) :
    roundUnits n d = shiftOf (n / d) * binade + nearestQuotient n (d * 2 ^ shiftOf (n / d)) := rfl

theorem shiftOf_mono (h : n ≤ m) : shiftOf n ≤ shiftOf m := by
  have hlog : n.log2 ≤ m.log2 := by
    by_cases hn : n = 0
    · rw [hn, Nat.log2_zero]
      exact Nat.zero_le _
    · have hm : m ≠ 0 := by omega
      exact (Nat.le_log2 hm).mpr ((Nat.log2_self_le hn).trans h)
  exact Nat.sub_le_sub_right hlog 52

theorem shiftOf_eq_zero (h : q < 2 * binade) : shiftOf q = 0 := by
  by_cases hq : q = 0
  · rw [hq]
    rfl
  · have hlog : q.log2 < 53 := (Nat.log2_lt hq).mpr h
    unfold shiftOf
    omega

/-- A whole part is below the next binade, and in its own one unless the shift is zero. -/
theorem shiftOf_spec (q : Nat) :
    q < 2 * binade * 2 ^ shiftOf q ∧ (shiftOf q = 0 ∨ binade * 2 ^ shiftOf q ≤ q) := by
  by_cases h : q < 2 * binade
  · rw [shiftOf_eq_zero h]
    exact ⟨by rwa [Nat.pow_zero, Nat.mul_one], .inl rfl⟩
  · have hq : q ≠ 0 := by
      have := binade_eq
      omega
    have hlog : 53 ≤ q.log2 := (Nat.le_log2 hq).mpr (Nat.not_lt.mp h)
    obtain ⟨s, hs⟩ : ∃ s, q.log2 = 52 + s := ⟨q.log2 - 52, by omega⟩
    have hshift : shiftOf q = s := by
      unfold shiftOf
      omega
    obtain ⟨hlo, hhi⟩ := (Nat.log2_eq_iff hq).mp hs
    rw [Nat.pow_add] at hlo
    rw [show 52 + s + 1 = 53 + s by omega, Nat.pow_add] at hhi
    rw [hshift]
    exact ⟨hhi, .inr hlo⟩

theorem le_shiftOf (h : binade * 2 ^ k ≤ n) : k ≤ shiftOf n := by
  have hlt : 2 ^ k < 2 ^ (shiftOf n + 1) := by
    refine Nat.lt_of_mul_lt_mul_left (a := binade) (h.trans_lt ?_)
    rw [Nat.pow_succ', ← Nat.mul_assoc, Nat.mul_comm binade]
    exact (shiftOf_spec n).1
  have := (Nat.pow_lt_pow_iff_right (by decide : 1 < 2)).mp hlt
  omega

theorem shiftOf_le (h : n < 2 * binade * 2 ^ k) : shiftOf n ≤ k := by
  rcases (shiftOf_spec n).2 with hzero | hle
  · omega
  · have hlt : 2 ^ shiftOf n < 2 ^ (k + 1) := by
      refine Nat.lt_of_mul_lt_mul_left (a := binade) (hle.trans_lt ?_)
      rwa [Nat.pow_succ', ← Nat.mul_assoc, Nat.mul_comm binade]
    have := (Nat.pow_lt_pow_iff_right (by decide : 1 < 2)).mp hlt
    omega

/-- A number of `53 + shift` binary digits. -/
theorem shiftOf_eq (hlo : binade * 2 ^ shift ≤ n) (hhi : n < 2 * binade * 2 ^ shift) :
    shiftOf n = shift :=
  Nat.le_antisymm (shiftOf_le hhi) (le_shiftOf hlo)

/-- The magnitude of a rank that is given by its shift and significand. The significand may be one
past the last: then the magnitude is the first of the next binade. -/
theorem units_add (hq : q ≤ 2 * binade) (hshift : shift = 0 ∨ binade ≤ q) :
    units (shift * binade + q) = q * 2 ^ shift := by
  unfold units
  split
  · next h =>
    have hzero : shift = 0 := by
      rw [binade_eq] at *
      omega
    rw [hzero, Nat.zero_mul, Nat.zero_add, Nat.pow_zero, Nat.mul_one]
  · next h =>
    have hle : binade ≤ q := by
      rw [binade_eq] at *
      omega
    rcases Nat.lt_or_eq_of_le hq with hlt | rfl
    · have hmod : (shift * binade + q) % binade = q - binade := by
        rw [binade_eq] at *
        omega
      have hdiv : (shift * binade + q) / binade - 1 = shift := by
        rw [binade_eq] at *
        omega
      rw [hmod, hdiv, Nat.add_sub_cancel' hle, Nat.pow_eq]
    · have hmod : (shift * binade + 2 * binade) % binade = 0 := by
        rw [← Nat.add_mul, Nat.mul_mod_left]
      have hdiv : (shift * binade + 2 * binade) / binade - 1 = shift + 1 := by
        rw [← Nat.add_mul, Nat.mul_div_cancel _ binade_pos]
        rfl
      rw [hmod, hdiv, Nat.add_zero, Nat.pow_eq, Nat.pow_succ']
      ring

/-- The significand that a ratio is rounded to. -/
theorem significand_bounds (n d : Nat) :
    nearestQuotient n (d * 2 ^ shiftOf (n / d)) ≤ 2 * binade ∧
      (shiftOf (n / d) = 0 ∨ binade ≤ nearestQuotient n (d * 2 ^ shiftOf (n / d))) := by
  obtain ⟨hhi, hlo⟩ := shiftOf_spec (n / d)
  obtain ⟨hq, hq'⟩ := nearestQuotient_bounds n (d * 2 ^ shiftOf (n / d))
  rw [← Nat.div_div_eq_div_mul] at hq hq'
  have hpow := Nat.two_pow_pos (shiftOf (n / d))
  have hlt : n / d / 2 ^ shiftOf (n / d) < 2 * binade := (Nat.div_lt_iff_lt_mul hpow).mpr hhi
  refine ⟨by omega, hlo.imp_right fun hlo => ?_⟩
  have hle : binade ≤ n / d / 2 ^ shiftOf (n / d) := (Nat.le_div_iff_mul_le hpow).mpr hlo
  omega

theorem units_roundUnits (n d : Nat) :
    units (roundUnits n d) =
      nearestQuotient n (d * 2 ^ shiftOf (n / d)) * 2 ^ shiftOf (n / d) := by
  obtain ⟨hhi, hlo⟩ := significand_bounds n d
  rw [roundUnits_eq, units_add hhi hlo]

theorem units_roundUnits_of_dvd (h : 2 ^ shiftOf n ∣ n) : units (roundUnits n 1) = n := by
  obtain ⟨q, hq⟩ := h
  have hround : nearestQuotient n (2 ^ shiftOf n) = q := by
    have hzero := nearestQuotient_mul_add (e := 0) (Nat.two_pow_pos (shiftOf n)) q
    rwa [Nat.add_zero, Nat.mul_comm, ← hq] at hzero
  rw [units_roundUnits, Nat.div_one, Nat.one_mul, hround, Nat.mul_comm, ← hq]

theorem exists_shift (r : Nat) :
    ∃ shift q, r = shift * binade + q ∧ q ≤ 2 * binade ∧ (shift = 0 ∨ binade ≤ q) := by
  have hb := binade_eq
  by_cases h : r < binade
  · exact ⟨0, r, by omega, by omega, .inl rfl⟩
  · refine ⟨r / binade - 1, r % binade + binade, ?_, ?_, .inr (Nat.le_add_left _ _)⟩ <;>
      rw [binade_eq] at * <;> omega

/-! ## Laws of rounding -/

theorem roundUnits_mul_add (hq : q ≤ 2 * binade) (hshift : shift = 0 ∨ binade ≤ q)
    (he : 2 * e < 2 ^ shift) : roundUnits (q * 2 ^ shift + e) 1 = shift * binade + q := by
  have hb := binade_eq
  have hpow := Nat.two_pow_pos shift
  rcases Nat.lt_or_eq_of_le hq with hlt | rfl
  · have hs : shiftOf (q * 2 ^ shift + e) = shift := by
      rcases hshift with rfl | hle
      · exact shiftOf_eq_zero (by omega)
      · have hlo : binade * 2 ^ shift ≤ q * 2 ^ shift := Nat.mul_le_mul_right _ hle
        have hhi : (q + 1) * 2 ^ shift ≤ 2 * binade * 2 ^ shift := Nat.mul_le_mul_right _ hlt
        rw [Nat.add_mul] at hhi
        exact shiftOf_eq (by omega) (by omega)
    rw [roundUnits_eq, Nat.div_one, hs, Nat.one_mul, nearestQuotient_mul_add he]
  · -- the significand is the first of the next binade
    have hs : shiftOf (2 * binade * 2 ^ shift + e) = shift + 1 := by
      have hp : (2 : Nat) ^ (shift + 1) = 2 * 2 ^ shift := by ring
      refine shiftOf_eq ?_ ?_ <;> rw [hp, hb] <;> omega
    have hsum : 2 * binade * 2 ^ shift + e = binade * 2 ^ (shift + 1) + e := by ring
    have he' : 2 * e < 2 ^ (shift + 1) := by
      rw [Nat.pow_succ]
      omega
    rw [roundUnits_eq, Nat.div_one, hs, Nat.one_mul, hsum, nearestQuotient_mul_add he']
    ring

theorem roundUnits_units (r : Nat) : roundUnits (units r) 1 = r := by
  obtain ⟨shift, q, rfl, hq, hshift⟩ := exists_shift r
  have hround := roundUnits_mul_add (e := 0) hq hshift (Nat.two_pow_pos shift)
  rwa [Nat.add_zero, ← units_add hq hshift] at hround

theorem roundUnits_mul_right (hk : 0 < k) (n d : Nat) :
    roundUnits (n * k) (d * k) = roundUnits n d := by
  rw [roundUnits_eq, Nat.mul_div_mul_right _ _ hk, Nat.mul_right_comm d k,
    nearestQuotient_mul_right hk, roundUnits_eq]

theorem roundUnits_mono (h : n ≤ m) (d : Nat) : roundUnits n d ≤ roundUnits m d := by
  have hdiv : n / d ≤ m / d := Nat.div_le_div_right h
  rw [roundUnits_eq, roundUnits_eq]
  rcases Nat.eq_or_lt_of_le (shiftOf_mono hdiv) with hs | hs
  · rw [hs]
    exact Nat.add_le_add_left (nearestQuotient_mono h _) _
  · -- the significands of a smaller shift end where those of the next one begin
    have hn := (significand_bounds n d).1
    have hm : binade ≤ nearestQuotient m (d * 2 ^ shiftOf (m / d)) :=
      (significand_bounds m d).2.resolve_left (by omega)
    have hstep : (shiftOf (n / d) + 1) * binade ≤ shiftOf (m / d) * binade :=
      Nat.mul_le_mul_right _ hs
    rw [Nat.add_mul] at hstep
    omega

theorem roundUnits_mul_two_pow (h : binade ≤ n) (k : Nat) :
    roundUnits (n * 2 ^ k) 1 = roundUnits n 1 + k * binade := by
  have hs : shiftOf (n * 2 ^ k) = shiftOf n + k := by
    obtain ⟨hhi, hlo⟩ := shiftOf_spec n
    have hlo : binade * 2 ^ shiftOf n ≤ n := by
      rcases hlo with h0 | hlo
      · rwa [h0, Nat.pow_zero, Nat.mul_one]
      · exact hlo
    apply shiftOf_eq
    · rw [Nat.pow_add, ← Nat.mul_assoc]
      exact Nat.mul_le_mul_right _ hlo
    · rw [Nat.pow_add, ← Nat.mul_assoc]
      exact Nat.mul_lt_mul_of_pos_right hhi (Nat.two_pow_pos k)
  rw [roundUnits_eq, Nat.div_one, hs, Nat.pow_add, ← Nat.mul_assoc,
    nearestQuotient_mul_right (Nat.two_pow_pos k), roundUnits_eq, Nat.div_one]
  ring

end DotQuery.Double
