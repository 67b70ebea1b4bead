import DotQuery.Proofs.Double.Notation
import DotQuery.Proofs.Loose.NumeralForm
import DotQuery.Proofs.Predicate.Comparison

/-!
# The coercions agree

A value as text is the value again for both comparisons: read as a number it is the number of the
value, and it is loosely equal to the value (`conversions_coherent`). The text of a JSON number,
with all its digits or the shortest, reads back as that number (`numberOfText_text_number`). Only
null, which equals nothing, and the booleans, whose names are no numbers, are different.
-/

namespace DotQuery

namespace Loose

open Double.Literal (Writes)

/-! ## Numbers as texts -/

theorem numberOfText_ofInt (i : Int) : numberOfText (Text.ofInt i) = .ofInt i := by
  cases i with
  | ofNat n =>
    have hnumber := numberOfText_digits (Text.allDigits_ofNat n) false
    rw [Text.natural_ofNat] at hnumber
    exact hnumber.trans (Double.ofInt_natCast n).symm
  | negSucc n =>
    have hnumber := numberOfText_digits (Text.allDigits_ofNat (n + 1)) true
    rw [Text.natural_ofNat] at hnumber
    rw [Text.ofInt, Double.ofInt, decide_eq_true (Int.negSucc_lt_zero n), Int.natAbs_negSucc]
    exact hnumber

/-- The text of a double without its sign. -/
def magnitudeText (rank : Nat) : Text :=
  if Double.units rank % Double.unitsPerOne = 0 ∧ Double.units rank < plainLimit then
    Text.ofNat (Double.units rank / Double.unitsPerOne)
  else (Double.shortest .up rank).positional

theorem realText_eq (x : Double.Finite) :
    realText x = if x.negative then '-' :: magnitudeText x.rank else magnitudeText x.rank := rfl

theorem exists_writes_magnitudeText {rank : Nat} (h : rank < Double.infinityRank) :
    ∃ l, Writes (magnitudeText rank) l ∧ l.HasDigit ∧ l.value.rank = rank := by
  unfold magnitudeText
  split
  · next hwhole =>
    -- all units make up whole ones
    obtain ⟨l, hwrites, hdigit, hvalue⟩ := Double.Literal.exists_writes_digits
      (Text.allDigits_ofNat (Double.units rank / Double.unitsPerOne))
    refine ⟨l, hwrites, hdigit, ?_⟩
    rw [hvalue, Text.natural_ofNat, Double.Decimal.rank, Double.decimalRank_whole,
      Double.roundRatio, Nat.div_mul_cancel (Nat.dvd_of_mod_eq_zero hwhole.1),
      Double.roundUnits_units]
  · have hrank := Double.rank_shortest .up rank
    have hexists := (Double.shortest .up rank).exists_writes_positional (by rwa [hrank])
    rwa [hrank] at hexists

theorem numberOfText_realText (x : Double.Finite) : numberOfText (realText x) = .finite x := by
  obtain ⟨l, hwrites, hdigit, hrank⟩ := exists_writes_magnitudeText x.rank_lt
  rw [realText_eq, numberOfText_of_writes hwrites hdigit, hrank]
  exact dif_pos x.rank_lt

theorem numberOfText_text_number (n : Number) :
    numberOfText (text (.number n)) = n.toDouble := by
  cases n with
  | whole i => rw [text, numberOfText_ofInt, Number.toDouble]
  | real x => rw [text, numberOfText_realText, Number.toDouble]

/-! ## All values -/

theorem numberOfText_objectText : numberOfText objectText = .nan := by decide +kernel

theorem isNan_numberOfText_bool (b : Bool) : (numberOfText (text (.bool b))).isNan = true := by
  cases b <;> decide +kernel

theorem equal_text_iff (v : Value) : equal (some v) (text v) = true ↔ v ≠ .null := by
  constructor
  · rintro h rfl
    cases h
  · intro h
    cases v with
    | null => exact absurd rfl h
    | bool b => cases b <;> decide +kernel
    | number n => rw [equal, numberOfText_text_number, Double.eq_self n.isNan_toDouble]
    | string t => rw [text, equal, beq_self_eq_true]
    | array items => rw [equal, beq_self_eq_true]
    | object fields => rw [text, equal, beq_self_eq_true]

theorem number_eq_iff (v : Value) :
    number (some v) = numberOfText (text v) ↔ ∀ b, v ≠ .bool b := by
  constructor
  · rintro h b rfl
    have hnan := isNan_numberOfText_bool b
    rw [← h] at hnan
    cases b <;> cases hnan
  · intro h
    cases v with
    | null => rw [text, number]; decide
    | bool b => exact absurd rfl (h b)
    | number n => rw [numberOfText_text_number, number]
    | string t => rw [text, number]
    | array items => rw [number]
    | object fields => rw [text, number, numberOfText_objectText]

theorem conversions_coherent (v : Value) :
    (equal (some v) (text v) = true ↔ v ≠ .null) ∧
      (number (some v) = numberOfText (text v) ↔ ∀ b, v ≠ .bool b) :=
  ⟨equal_text_iff v, number_eq_iff v⟩

end Loose

end DotQuery
