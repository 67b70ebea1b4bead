import DotQuery.Proofs.Double.Appending
import DotQuery.Proofs.Loose.NumeralForm
import DotQuery.Proofs.Predicate.Comparison

/-!
# Spellings of a natural number

A number in decimal is rounded once, and so is its kept part if it is written in a marked radix
(`numberOfText_decimal`, `numberOfText_marked`). Both are the same double, in every filter that
compares numbers, except at a lost tie, where the marked spelling is the next lower double
(`numberOfText_spellings`).
-/

namespace DotQuery

/-- A filter that compares numbers on a candidate: an order, or any other operator where the field
is a JSON number. -/
def Condition.ComparesNumbers (candidate : Value) (key : Text) (op : Operator) : Prop :=
  op ∈ orderOperators ∨ ∃ m, candidate.get? key = some (.number m)

namespace Loose

open Double (ofNat keptPart LostTie)

variable {radix n : Nat} {mark : Char} {t u : Text}

/-! ## Values of spellings -/

theorem numberOfText_decimal (h : Digits 10 t n) (hne : t ≠ []) : numberOfText t = ofNat n := by
  obtain ⟨hvalue, hdigits⟩ := Text.natural_of_digits h
  have hnumber := numberOfText_digits (Text.allDigits_iff.mpr ⟨hne, hdigits⟩) false
  rwa [hvalue] at hnumber

theorem foldl_appendDigit {b : Nat} (hb : 0 < b) (h : Digits (2 ^ b) t n) :
    ∃ ds, t.mapM (digitValue? (2 ^ b)) = some ds ∧
      ds.foldl (Double.appendDigit (2 ^ b)) .zero = ofNat (keptPart (2 ^ b) n) := by
  induction h with
  | nil =>
    have hkept : keptPart (2 ^ b) 0 = 0 :=
      Double.keptPart_of_lt (Nat.mul_pos (by decide) (Nat.two_pow_pos b))
    refine ⟨[], rfl, ?_⟩
    rw [hkept, ofNat, Double.roundRatio_zero, List.foldl_nil]
    rfl
  | concat run digit ih =>
    obtain ⟨ds, hds, hfold⟩ := ih
    refine ⟨_, mapM_concat_eq_some_iff.mpr ⟨ds, _, hds, digit, rfl⟩, ?_⟩
    rw [List.foldl_append, hfold, List.foldl_cons, List.foldl_nil,
      Double.appendDigit_ofNat hb _ (lt_of_digitValue? digit)]

theorem exists_bits (h : RadixMark mark radix) : ∃ b, 0 < b ∧ radix = 2 ^ b := by
  cases h with
  | hex => exact ⟨4, by decide, rfl⟩
  | octal => exact ⟨3, by decide, rfl⟩
  | binary => exact ⟨1, by decide, rfl⟩

theorem numberOfText_marked (hmark : RadixMark mark radix) (h : Digits radix t n) (hne : t ≠ []) :
    numberOfText ('0' :: mark :: t) = ofNat (keptPart radix n) := by
  obtain ⟨b, hb, rfl⟩ := exists_bits hmark
  obtain ⟨ds, hds, hfold⟩ := foldl_appendDigit hb h
  have hform : NumeralForm ('0' :: mark :: t) := .marked hmark hne fun c hc =>
    (digitOf_iff hmark).mpr (isSome_mapM_iff.mp (by rw [hds]; rfl) c hc)
  have hradix : radixDigits? (Text.trim ('0' :: mark :: t)) = some (2 ^ b, t) :=
    radixDigits?_eq_some_iff.mpr ⟨mark, hmark, hform.trim_eq⟩
  rw [numberOfText_of_mark hradix, radixNumber, if_neg hne, hds]
  exact hfold

/-! ## The same number in two spellings -/

theorem holds_congr {candidate : Value} {key : Text} {op : Operator}
    (hop : Condition.ComparesNumbers candidate key op) (h : numberOfText t = numberOfText u) :
    (⟨key, op, t⟩ : Condition).holds candidate = (⟨key, op, u⟩ : Condition).holds candidate := by
  rcases hop with hop | ⟨m, hm⟩
  · simp only [Condition.orderOperators, List.mem_cons, List.not_mem_nil, or_false] at hop
    rcases hop with rfl | rfl | rfl | rfl <;> simp only [Condition.holds, h]
  · cases op <;> simp only [Condition.holds, equal, hm, h]

/-- The number itself, as a field, equals every text whose filters answer as those of its decimal
spelling. -/
theorem eq_of_holds_congr (hu : numberOfText u = ofNat n)
    (h : ∀ candidate key op, Condition.ComparesNumbers candidate key op →
      (⟨key, op, t⟩ : Condition).holds candidate = (⟨key, op, u⟩ : Condition).holds candidate) :
    (ofNat n).eq (numberOfText t) = true := by
  have hfield : (Double.ofInt n).eq (numberOfText t) = (Double.ofInt n).eq (numberOfText u) :=
    h (.object [([], .number (.whole n))]) [] .equal (.inr ⟨.whole n, rfl⟩)
  rw [Double.ofInt_natCast, hu] at hfield
  exact hfield.trans (Double.eq_self (Double.isNan_ofRank false _))

theorem numberOfText_spellings (hn : n < 2 ^ 1023) (hu : Digits 10 u n) (hune : u ≠ [])
    (hmark : RadixMark mark radix) (ht : Digits radix t n) (hne : t ≠ []) :
    let marked := '0' :: mark :: t
    numberOfText u = ofNat n ∧ numberOfText marked = ofNat (keptPart radix n) ∧
      (numberOfText marked = numberOfText u ↔ ¬ LostTie radix n) ∧
      ((∀ candidate key op, Condition.ComparesNumbers candidate key op →
          (⟨key, op, marked⟩ : Condition).holds candidate =
            (⟨key, op, u⟩ : Condition).holds candidate) ↔ ¬ LostTie radix n) ∧
      (LostTie radix n → ∃ rank, rank + 1 < Double.infinityRank ∧
        numberOfText marked = .ofRank false rank ∧ numberOfText u = .ofRank false (rank + 1)) := by
  intro marked
  obtain ⟨b, hb, rfl⟩ := exists_bits hmark
  have hdecimal : numberOfText u = ofNat n := numberOfText_decimal hu hune
  have hmarked : numberOfText marked = ofNat (keptPart (2 ^ b) n) :=
    numberOfText_marked hmark ht hne
  have hfinite : Double.roundRatio n 1 < Double.infinityRank := Double.roundRatio_lt hn
  have hrank := Double.roundRatio_eq_keptPart_add b n
  have hkept : Double.roundRatio (keptPart (2 ^ b) n) 1 < Double.infinityRank :=
    (Nat.le.intro hrank.symm).trans_lt hfinite
  have heq : (ofNat n).eq (numberOfText marked) = true ↔ ¬ LostTie (2 ^ b) n := by
    rw [hmarked, ofNat, ofNat, Double.eq_ofRank_iff hfinite hkept,
      Double.roundRatio_eq_keptPart_iff]
  have hsame : numberOfText marked = numberOfText u ↔ ¬ LostTie (2 ^ b) n := by
    refine ⟨fun h => ?_, fun h => ?_⟩
    · rw [← heq, h, hdecimal]
      exact Double.eq_self (Double.isNan_ofRank false _)
    · rw [hmarked, hdecimal, ofNat, ofNat, (Double.roundRatio_eq_keptPart_iff b n).mpr h]
  refine ⟨hdecimal, hmarked, hsame, ⟨fun h => heq.mp (eq_of_holds_congr hdecimal h), fun h => ?_⟩,
    fun htie => ?_⟩
  · exact fun candidate key op hop => holds_congr hop (hsame.mpr h)
  · rw [if_pos htie] at hrank
    exact ⟨_, hrank ▸ hfinite, hmarked, by rw [hdecimal, ofNat, hrank]⟩

/-- A late digit is lost here too, but the lower of the two doubles is odd. -/
theorem numberOfText_spellings_odd_tie :
    let n : Nat := 0x1000000000000181
    n < 2 ^ 1023 ∧ Digits 10 "1152921504606847361".toList n ∧ RadixMark 'X' 16 ∧
      Digits 16 "001000000000000181".toList n ∧ ¬ LostTie 16 n ∧
      numberOfText "0X001000000000000181".toList = numberOfText "1152921504606847361".toList := by
  have hn : 0x1000000000000181 < 2 ^ 1023 := by decide +kernel
  have hu : Digits 10 "1152921504606847361".toList 0x1000000000000181 := by decide +kernel
  have ht : Digits 16 "001000000000000181".toList 0x1000000000000181 := by decide +kernel
  have htie : ¬ LostTie 16 0x1000000000000181 := by decide +kernel
  have hmark : RadixMark 'X' 16 := .hex (.inr rfl)
  obtain ⟨-, -, hsame, -, -⟩ := numberOfText_spellings hn hu (by decide) hmark ht (by decide)
  exact ⟨hn, hu, hmark, ht, htie, hsame.mpr htie⟩

/-- The number `2 ^ 60 + 129` in decimal is nearer to `2 ^ 60 + 256` than to `2 ^ 60`. With a mark
its last digit comes after the tie has been rounded down, and a field that holds the number is not
equal to it. -/
theorem lost_tie_of_marked_number :
    let n : Nat := 0x1000000000000081
    let candidate : Value := .object [(['k'], .number (.whole n))]
    Digits 10 "1152921504606847105".toList n ∧ Digits 16 "1000000000000081".toList n ∧
      n < 2 ^ 1023 ∧ LostTie 16 n ∧
      numberOfText "1152921504606847105".toList = ofNat (2 ^ 60 + 256) ∧
      numberOfText "0x1000000000000081".toList = ofNat (2 ^ 60) ∧
      numberOfText "0x1000000000000081".toList ≠ numberOfText "1152921504606847105".toList ∧
      (⟨['k'], .equal, "1152921504606847105".toList⟩ : Condition).holds candidate = true ∧
      (⟨['k'], .equal, "0x1000000000000081".toList⟩ : Condition).holds candidate = false := by
  intro n candidate
  refine ⟨?_, ?_, ?_, ?_, ?_, ?_, ?_, ?_, ?_⟩ <;> decide +kernel

end Loose

end DotQuery
