import DotQuery.Double.Notation
import DotQuery.Proofs.Double.Decimal
import DotQuery.Proofs.Double.Literal

/-!
# Positional notation reads back

A finite decimal number that is written without an exponent is a literal, with a digit before the
point, whose value has the same rank (`exists_writes_positional`): zeros behind a whole number stand
for its exponent, and zeros in front of a fraction do not count.
-/

namespace DotQuery.Double

namespace Decimal

open Literal (Writes)

theorem isDigit_of_mem_zeros {k : Nat} {c : Char} (h : c ∈ List.replicate k '0') :
    isDigit c = true := by
  rw [List.eq_of_mem_replicate h]
  rfl

/-- Zeros behind the digits stand for an exponent that is not negative. -/
theorem exists_writes_whole (x : Decimal) (hexponent : 0 ≤ x.exponent) (h : x.rank < infinityRank) :
    ∃ l, Writes x.positional l ∧ l.HasDigit ∧ l.value.rank = x.rank := by
  obtain ⟨hne, hdigits⟩ := Text.allDigits_iff.mp (Text.allDigits_ofNat x.digits)
  have htext : x.positional = Text.ofNat x.digits ++ List.replicate x.exponent.toNat '0' :=
    if_pos hexponent
  have hall : x.positional.allDigits = true := by
    rw [htext, Text.allDigits_iff]
    exact ⟨List.append_ne_nil_of_left_ne_nil hne _, fun c hc =>
      (List.mem_append.mp hc).elim (hdigits c) isDigit_of_mem_zeros⟩
  obtain ⟨l, hwrites, hdigit, hvalue⟩ := Literal.exists_writes_digits hall
  refine ⟨l, hwrites, hdigit, ?_⟩
  rw [hvalue, htext, Text.natural_append_zeros, Text.natural_ofNat]
  exact decimalRank_shift hexponent h

/-- Zeros in front fill the digits up to the point, so that one digit stands before it. -/
theorem exists_writes_fraction (x : Decimal) (hexponent : x.exponent < 0) :
    ∃ l, Writes x.positional l ∧ l.HasDigit ∧ l.value.rank = x.rank := by
  obtain ⟨-, hdigits⟩ := Text.allDigits_iff.mp (Text.allDigits_ofNat x.digits)
  let places := (-x.exponent).toNat
  let padded :=
    List.replicate (places + 1 - (Text.ofNat x.digits).length) '0' ++ Text.ofNat x.digits
  have htext : x.positional = padded.take (padded.length - places) ++
      '.' :: padded.drop (padded.length - places) := if_neg (by omega)
  have hpadded : ∀ c ∈ padded, isDigit c = true := fun c hc =>
    (List.mem_append.mp hc).elim isDigit_of_mem_zeros (hdigits c)
  have hlength : places + 1 ≤ padded.length := by
    rw [List.length_append, List.length_replicate]
    omega
  have hwhole : Text.allDigits (padded.take (padded.length - places)) = true := by
    refine Text.allDigits_iff.mpr ⟨List.ne_nil_of_length_pos ?_, fun c hc =>
      hpadded c (List.mem_of_mem_take hc)⟩
    rw [List.length_take]
    omega
  have hplaces : -((padded.length - (padded.length - places) : Nat) : Int) = x.exponent := by
    omega
  have hfraction : ∀ c ∈ padded.drop (padded.length - places), isDigit c = true := fun c hc =>
    hpadded c (List.mem_of_mem_drop hc)
  obtain ⟨l, hwrites, hdigit, hvalue⟩ := Literal.exists_writes_point hwhole hfraction
  refine ⟨l, htext ▸ hwrites, hdigit, ?_⟩
  rw [hvalue, List.take_append_drop, List.length_drop, hplaces, Text.natural_zeros_append,
    Text.natural_ofNat]

theorem exists_writes_positional (x : Decimal) (h : x.rank < infinityRank) :
    ∃ l, Writes x.positional l ∧ l.HasDigit ∧ l.value.rank = x.rank := by
  rcases Int.lt_or_le x.exponent 0 with hexponent | hexponent
  · exact x.exists_writes_fraction hexponent
  · exact x.exists_writes_whole hexponent h

end Decimal

end DotQuery.Double
