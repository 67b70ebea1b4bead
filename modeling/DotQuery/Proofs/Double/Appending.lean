import Mathlib.Data.Nat.Log
import DotQuery.Proofs.Double.Rounding

/-!
# Rounding digit by digit

A number that is read digit by digit, in a radix that is a power of two, is exact up to 53 binary
digits. The digit that takes it past them is rounded in; each later one is less than half a unit and
is lost (`appendDigit_ofNat`). So the result is `keptPart`, the number with zeros for its late
digits, rounded once. That is the number itself rounded, unless the kept digits are halfway between
two doubles and only a lost digit could decide (`LostTie`, `roundRatio_eq_keptPart_add`).
-/

namespace DotQuery.Double

variable {n d radix : Nat}

/-! ## Whole numbers -/

theorem units_roundRatio (h : n < 2 * binade) : units (roundRatio n 1) = n * unitsPerOne := by
  have hlt : n * unitsPerOne < 2 * binade * 2 ^ unitPlaces := by
    rw [unitsPerOne_eq]
    exact Nat.mul_lt_mul_of_pos_right h (Nat.two_pow_pos unitPlaces)
  apply units_roundUnits_of_dvd
  have hdvd : 2 ^ shiftOf (n * unitsPerOne) ∣ unitsPerOne := by
    rw [unitsPerOne_eq] at hlt ⊢
    exact Nat.pow_dvd_pow 2 (shiftOf_le hlt)
  exact hdvd.mul_left n

theorem roundRatio_le {k : Nat} (h : n ≤ 2 ^ (52 + k)) :
    roundRatio n 1 ≤ (k + unitPlaces + 1) * binade := by
  have hle : n * unitsPerOne ≤ binade * 2 ^ (k + unitPlaces) + 0 := by
    rw [Nat.pow_add] at h
    rw [Nat.add_zero, Nat.pow_add, ← Nat.mul_assoc, unitsPerOne_eq]
    exact Nat.mul_le_mul_right _ h
  have hround := roundUnits_mono hle 1
  rw [roundUnits_mul_add (Nat.le_mul_of_pos_left _ (by decide)) (.inr (Nat.le_refl _))
    (Nat.two_pow_pos (k + unitPlaces))] at hround
  rwa [Nat.succ_mul]

/-- Whole numbers below `2 ^ 1023` are finite. -/
theorem roundRatio_lt (h : n < 2 ^ 1023) : roundRatio n 1 < infinityRank := by
  rw [show 1023 = 52 + 971 from rfl] at h
  exact (roundRatio_le h.le).trans_lt (by decide)

theorem roundRatio_eq_add (h : binade ≤ n) :
    roundRatio n 1 =
      shiftOf n * binade + nearestQuotient n (2 ^ shiftOf n) + unitPlaces * binade := by
  rw [roundRatio, unitsPerOne_eq, roundUnits_mul_two_pow h, roundUnits_eq, Nat.div_one, Nat.one_mul]

/-- Binary places behind a rounded number are lost if they are less than half of its unit. -/
theorem roundUnits_append {e b : Nat} (h : binade ≤ n) (he : 2 * e < 2 ^ (shiftOf n + b)) :
    roundUnits (units (roundUnits n 1) * 2 ^ b + e) 1 = roundUnits (n * 2 ^ b) 1 := by
  have hbounds := significand_bounds n 1
  have hunits := units_roundUnits n 1
  have hround := roundUnits_eq n 1
  have hfloor := (nearestQuotient_bounds n (2 ^ shiftOf n)).1
  rw [Nat.div_one, Nat.one_mul] at hbounds hunits hround
  have hsignificand : binade ≤ nearestQuotient n (2 ^ shiftOf n) := by
    rcases hbounds.2 with hzero | hle
    · rw [hzero, Nat.pow_zero, Nat.div_one] at hfloor
      rw [hzero, Nat.pow_zero]
      exact h.trans hfloor
    · exact hle
  rw [roundUnits_mul_two_pow h, hunits, hround, Nat.mul_assoc, ← Nat.pow_add,
    roundUnits_mul_add hbounds.1 (.inr hsignificand) he]
  ring

/-- A digit behind a number of more than 53 binary digits is less than half of its unit. -/
theorem two_mul_digit_lt {b : Nat} (h : 2 * binade ≤ n) (hd : d < 2 ^ b) :
    2 * (d * unitsPerOne) < 2 ^ (shiftOf (n * unitsPerOne) + b) := by
  have hshift : unitPlaces + 1 ≤ shiftOf (n * unitsPerOne) := by
    apply le_shiftOf
    rw [Nat.pow_succ', ← Nat.mul_assoc, Nat.mul_comm binade, ← unitsPerOne_eq]
    exact Nat.mul_le_mul_right _ h
  calc 2 * (d * unitsPerOne)
      < 2 * (2 ^ b * unitsPerOne) :=
        Nat.mul_lt_mul_of_pos_left (Nat.mul_lt_mul_of_pos_right hd unitsPerOne_pos) (by decide)
    _ = 2 ^ (unitPlaces + 1 + b) := by rw [unitsPerOne_eq]; ring
    _ ≤ _ := Nat.pow_le_pow_right (by decide) (by omega)

theorem appendDigit_ofRank (hradix : 0 < radix) (rank digit : Nat) :
    appendDigit radix (ofRank false rank) digit =
      ofRank false (roundUnits (units rank * radix + digit * unitsPerOne) 1) := by
  by_cases h : rank < infinityRank
  · rw [ofRank, dif_pos h, appendDigit]
  · have hle : units rank ≤ units rank * radix + digit * unitsPerOne :=
      (Nat.le_mul_of_pos_right _ hradix).trans (Nat.le_add_right _ _)
    have hround := roundUnits_mono hle 1
    rw [roundUnits_units] at hround
    rw [ofRank, dif_neg h, ofRank, dif_neg (by omega)]
    rfl

/-! ## Kept digits -/

/-- The last place that is kept: the digits behind it come after the number has passed 53 binary
digits. -/
def lastPlace (radix n : Nat) : Nat := radix ^ Nat.log radix (n / (2 * binade))

/-- The number with zeros for its late digits. -/
def keptPart (radix n : Nat) : Nat := n / lastPlace radix n * lastPlace radix n

theorem lastPlace_pos (hradix : 0 < radix) : 0 < lastPlace radix n := Nat.pow_pos hradix

theorem lastPlace_le (radix : Nat) (h : 2 * binade ≤ n) :
    lastPlace radix n ≤ n / (2 * binade) :=
  Nat.pow_log_le_self radix (Nat.div_pos h (by decide)).ne'

theorem keptPart_of_lt (h : n < 2 * binade * radix) : keptPart radix n = n := by
  have hplace : lastPlace radix n = 1 := by
    rw [lastPlace, Nat.log_of_lt (Nat.div_lt_of_lt_mul h), Nat.pow_zero]
  rw [keptPart, hplace, Nat.div_one, Nat.mul_one]

theorem keptPart_mul_add (hradix : 1 < radix) (h : 2 * binade ≤ n) (hd : d < radix) :
    keptPart radix (radix * n + d) = radix * keptPart radix n := by
  have hdiv : (radix * n + d) / radix = n := by
    rw [Nat.mul_add_div (by omega), Nat.div_eq_of_lt hd, Nat.add_zero]
  have hplace : lastPlace radix (radix * n + d) = radix * lastPlace radix n := by
    have hle : radix ≤ (radix * n + d) / (2 * binade) := by
      rw [Nat.le_div_iff_mul_le (by decide)]
      exact (Nat.mul_le_mul_left radix h).trans (Nat.le_add_right _ _)
    rw [lastPlace, Nat.log_of_one_lt_of_le hradix hle, Nat.div_div_eq_div_mul,
      Nat.mul_comm (2 * binade), ← Nat.div_div_eq_div_mul, hdiv, Nat.pow_succ', lastPlace]
  rw [keptPart, hplace, ← Nat.div_div_eq_div_mul, hdiv, keptPart]
  ring

theorem le_keptPart (hradix : 0 < radix) (h : 2 * binade ≤ n) : 2 * binade ≤ keptPart radix n := by
  have hpos := lastPlace_pos (n := n) hradix
  have hdiv : 2 * binade ≤ n / lastPlace radix n := by
    rw [Nat.le_div_iff_mul_le hpos, Nat.mul_comm]
    exact (Nat.le_div_iff_mul_le (by decide)).mp (lastPlace_le radix h)
  exact hdiv.trans (Nat.le_mul_of_pos_right _ hpos)

theorem appendDigit_ofNat {b : Nat} (hb : 0 < b) (n : Nat) (hd : d < 2 ^ b) :
    appendDigit (2 ^ b) (ofNat (keptPart (2 ^ b) n)) d =
      ofNat (keptPart (2 ^ b) (2 ^ b * n + d)) := by
  have hradix : 1 < 2 ^ b := Nat.one_lt_two_pow (by omega)
  rw [ofNat, appendDigit_ofRank (by omega), ofNat]
  refine congrArg (ofRank false) ?_
  by_cases h : n < 2 * binade
  · have hn : n < 2 * binade * 2 ^ b := h.trans_le (Nat.le_mul_of_pos_right _ (by omega))
    have hnext : 2 ^ b * n + d < 2 * binade * 2 ^ b := by
      have hmul := Nat.mul_le_mul_left (2 ^ b) h
      rw [Nat.mul_succ] at hmul
      rw [Nat.mul_comm (2 * binade)]
      omega
    rw [keptPart_of_lt hn, keptPart_of_lt hnext, units_roundRatio h, roundRatio, Nat.add_mul,
      Nat.mul_right_comm, Nat.mul_comm n]
  · have hle := Nat.not_lt.mp h
    have hkept : 2 * binade ≤ keptPart (2 ^ b) n := le_keptPart (by omega) hle
    have hbinade : binade ≤ keptPart (2 ^ b) n * unitsPerOne :=
      (Nat.le_mul_of_pos_left _ (by decide)).trans
        (hkept.trans (Nat.le_mul_of_pos_right _ unitsPerOne_pos))
    rw [keptPart_mul_add hradix hle hd, roundRatio,
      roundUnits_append hbinade (two_mul_digit_lt hkept hd), roundRatio, Nat.mul_comm (2 ^ b),
      Nat.mul_right_comm]

/-! ## Lost ties -/

/-- The kept digits are halfway between two doubles of which the lower one is even, and a late digit
is not zero. The doubles near `n` are `2 ^ shiftOf n` apart. -/
@[mk_iff]
structure LostTie (radix n : Nat) : Prop where
  half : 2 * (keptPart radix n % 2 ^ shiftOf n) = 2 ^ shiftOf n
  even : keptPart radix n / 2 ^ shiftOf n % 2 = 0
  lost : keptPart radix n < n

instance : Decidable (LostTie radix n) := decidable_of_iff _ (lostTie_iff radix n).symm

/-- What is left over a multiple of `g` decides nothing but a tie, if half of the divisor is such a
multiple too. -/
theorem nearestQuotient_add_rest {g rest : Nat} (m half : Nat) (hrest : rest < g) :
    nearestQuotient (m * g + rest) (2 * half * g) =
      nearestQuotient (m * g) (2 * half * g) +
        if m % (2 * half) = half ∧ m / (2 * half) % 2 = 0 ∧ 0 < rest then 1 else 0 := by
  have hg : 0 < g := by omega
  have hwhole : (m * g + rest) / g = m := by
    rw [Nat.mul_comm, Nat.mul_add_div hg, Nat.div_eq_of_lt hrest, Nat.add_zero]
  have hdiv : (m * g + rest) / (2 * half * g) = m / (2 * half) := by
    rw [Nat.mul_comm (2 * half), ← Nat.div_div_eq_div_mul, hwhole]
  have hmod : (m * g + rest) % (2 * half * g) = m % (2 * half) * g + rest := by
    rw [Nat.mul_comm (2 * half), Nat.mod_mul, hwhole, Nat.mul_comm m, Nat.mul_add_mod,
      Nat.mod_eq_of_lt hrest, Nat.add_comm, Nat.mul_comm g]
  simp only [nearestQuotient, hdiv, hmod, Nat.mul_div_mul_right _ _ hg, Nat.mul_mod_mul_right]
  generalize m / (2 * half) = q
  generalize m % (2 * half) = left
  rw [Nat.mul_assoc 2 half]
  rcases Nat.lt_trichotomy left half with h | h | h
  · have hle := Nat.mul_le_mul_right g (Nat.succ_le_of_lt h)
    rw [Nat.succ_mul] at hle
    rw [if_pos (by omega), if_pos (by omega), if_neg (by omega)]
    rfl
  · rw [h, if_neg (by omega : ¬ 2 * (half * g) < 2 * (half * g)), if_neg (Nat.lt_irrefl _),
      if_neg (by omega)]
    split_ifs <;> omega
  · have hle := Nat.mul_le_mul_right g (Nat.succ_le_of_lt h)
    rw [Nat.succ_mul] at hle
    rw [if_neg (by omega), if_pos (by omega), if_neg (by omega), if_pos (by omega),
      if_neg (by omega)]

theorem exists_half {b : Nat} (h : 2 * binade ≤ n) :
    ∃ half, 2 ^ shiftOf n = 2 * half * lastPlace (2 ^ b) n := by
  have hlt : n / (2 * binade) < 2 ^ shiftOf n := Nat.div_lt_of_lt_mul (shiftOf_spec n).1
  have hle := (lastPlace_le (2 ^ b) h).trans_lt hlt
  rw [lastPlace, ← Nat.pow_mul] at hle ⊢
  obtain ⟨i, hi⟩ := Nat.exists_eq_add_of_lt ((Nat.pow_lt_pow_iff_right (by decide)).mp hle)
  refine ⟨2 ^ i, ?_⟩
  rw [hi]
  ring

theorem shiftOf_keptPart {b : Nat} (h : 2 * binade ≤ n) :
    shiftOf (keptPart (2 ^ b) n) = shiftOf n := by
  obtain ⟨half, hhalf⟩ := exists_half (b := b) h
  obtain ⟨hhi, hlo⟩ := shiftOf_spec n
  have hshift : 1 ≤ shiftOf n := le_shiftOf (by rwa [Nat.pow_one, Nat.mul_comm])
  have hlo := hlo.resolve_left (by omega)
  refine shiftOf_eq ?_ ((Nat.div_mul_le_self n _).trans_lt hhi)
  -- the first number of the binade is a multiple of the last place
  rw [hhalf, ← Nat.mul_assoc] at hlo ⊢
  exact Nat.mul_le_mul_right _ ((Nat.le_div_iff_mul_le (lastPlace_pos (Nat.two_pow_pos b))).mpr hlo)

theorem lostTie_iff_of_half {half : Nat} (hhalf : 2 ^ shiftOf n = 2 * half * lastPlace radix n)
    (hpos : 0 < lastPlace radix n) :
    LostTie radix n ↔
      n / lastPlace radix n % (2 * half) = half ∧ n / lastPlace radix n / (2 * half) % 2 = 0 ∧
        0 < n % lastPlace radix n := by
  have hsplit : keptPart radix n + n % lastPlace radix n = n := Nat.div_add_mod' n _
  have hlost : keptPart radix n < n ↔ 0 < n % lastPlace radix n := by omega
  have htie (a : Nat) :
      2 * (a * lastPlace radix n) = 2 * half * lastPlace radix n ↔ a = half := by
    rw [← Nat.mul_assoc, Nat.mul_left_inj hpos.ne']
    omega
  rw [lostTie_iff, hlost, hhalf, keptPart, Nat.mul_mod_mul_right, Nat.mul_div_mul_right _ _ hpos,
    htie]

/-- Only a lost tie shows, as the next lower double. -/
theorem roundRatio_eq_keptPart_add (b n : Nat) :
    roundRatio n 1 =
      roundRatio (keptPart (2 ^ b) n) 1 + if LostTie (2 ^ b) n then 1 else 0 := by
  have hradix := Nat.two_pow_pos b
  by_cases h : n < 2 * binade
  · have hkept : keptPart (2 ^ b) n = n :=
      keptPart_of_lt (h.trans_le (Nat.le_mul_of_pos_right _ hradix))
    have hlost : ¬ LostTie (2 ^ b) n := fun tie => tie.lost.ne hkept
    rw [hkept, if_neg hlost, Nat.add_zero]
  · have hle := Nat.not_lt.mp h
    have hpos := lastPlace_pos (n := n) hradix
    have hbinade : binade ≤ 2 * binade := Nat.le_mul_of_pos_left _ (by decide)
    have hsplit : keptPart (2 ^ b) n + n % lastPlace (2 ^ b) n = n := Nat.div_add_mod' n _
    obtain ⟨half, hhalf⟩ := exists_half (b := b) hle
    have hround := nearestQuotient_add_rest (n / lastPlace (2 ^ b) n) half (Nat.mod_lt n hpos)
    rw [← keptPart, hsplit, ← hhalf] at hround
    rw [roundRatio_eq_add (hbinade.trans hle),
      roundRatio_eq_add (hbinade.trans (le_keptPart hradix hle)), shiftOf_keptPart hle, hround]
    simp only [lostTie_iff_of_half hhalf hpos]
    omega

theorem roundRatio_eq_keptPart_iff (b n : Nat) :
    roundRatio n 1 = roundRatio (keptPart (2 ^ b) n) 1 ↔ ¬ LostTie (2 ^ b) n := by
  rw [roundRatio_eq_keptPart_add b n, Nat.add_eq_left, ite_eq_right_iff]
  exact imp_congr_right fun _ => iff_of_false Nat.one_ne_zero id

end DotQuery.Double
