import DotQuery.Json.Printer
import DotQuery.Proofs.Text.Pieces

/-!
# JSON on one line

The compact text of a value is on one line (`Value.lineFeed_not_mem_compact`): a line feed inside a
string is escaped, numbers are digits, signs, points and exponent marks, and nothing stands between
the parts of arrays and objects but commas and colons.
-/

namespace DotQuery

/-! ## Numbers -/

namespace Double.Decimal

variable (x : Decimal)

theorem lineFeed_not_mem_digitsText : '\n' ∉ x.digitsText := Text.lineFeed_not_mem_ofNat _

theorem lineFeed_not_mem_positional : '\n' ∉ x.positional := by
  unfold positional
  split
  · simp [x.lineFeed_not_mem_digitsText]
  · -- the digits and the zeros in front of them are cut at the point
    have hdigits : ∀ n, '\n' ∉ List.replicate n '0' ++ x.digitsText := fun n => by
      simp [x.lineFeed_not_mem_digitsText]
    simp only [List.mem_append, List.mem_cons, not_or]
    exact ⟨fun h => hdigits _ (List.mem_of_mem_take h), by decide,
      fun h => hdigits _ (List.mem_of_mem_drop h)⟩

theorem lineFeed_not_mem_scientific : '\n' ∉ x.scientific := by
  have hexponent := Text.lineFeed_not_mem_ofInt x.leadingExponent
  have hsign : '\n' ∉ (if x.leadingExponent < 0 then [] else ['+'] : Text) := by split <;> decide
  have hdigits := x.lineFeed_not_mem_digitsText
  unfold scientific
  dsimp only
  split
  · next d d' ds h =>
    simp only [h, List.mem_cons, not_or] at hdigits
    simp [hdigits, hsign, hexponent]
  · simp [hdigits, hsign, hexponent]

theorem Layout.lineFeed_not_mem_write (layout : Layout) : '\n' ∉ layout.write x := by
  unfold write
  split
  · split
    · simp [x.lineFeed_not_mem_positional]
    · exact x.lineFeed_not_mem_positional
  · exact x.lineFeed_not_mem_scientific

end Double.Decimal

namespace Json

theorem lineFeed_not_mem_numberText (n : Number) : '\n' ∉ numberText n := by
  cases n with
  | whole i => exact Text.lineFeed_not_mem_ofInt i
  | real x =>
    have hdigits := realLayout.lineFeed_not_mem_write (Double.shortest .toEven x.rank)
    unfold numberText
    dsimp only
    split
    · exact List.not_mem_cons_of_ne_of_not_mem (by decide) hdigits
    · exact hdigits

/-! ## Strings -/

theorem lineFeed_not_mem_escapeChar (c : Char) : '\n' ∉ escapeChar c := by
  unfold escapeChar
  split
  case h_8 hfeed _ _ =>
    split
    · simp [Text.lineFeed_not_mem_ofNatHex]
    · simpa using Ne.symm hfeed
  all_goals decide

theorem lineFeed_not_mem_stringText (t : Text) : '\n' ∉ stringText t := by
  simp [stringText, lineFeed_not_mem_escapeChar]

end Json

/-! ## Values -/

namespace Value

open Json

theorem lineFeed_not_mem_comma : '\n' ∉ ([','] : Text) := by decide

mutual

theorem lineFeed_not_mem_compact : ∀ v : Value, '\n' ∉ v.compact
  | null => by decide
  | bool b => by cases b <;> decide
  | number n => lineFeed_not_mem_numberText n
  | string t => lineFeed_not_mem_stringText t
  | array items => by
    have hitems :=
      Text.not_mem_joinWith lineFeed_not_mem_comma (lineFeed_not_mem_compactItems items)
    simp [compact, hitems]
  | object fields => by
    have hfields :=
      Text.not_mem_joinWith lineFeed_not_mem_comma (lineFeed_not_mem_compactFields fields)
    simp [compact, hfields]

theorem lineFeed_not_mem_compactItems : ∀ vs : List Value, ∀ p ∈ compactItems vs, '\n' ∉ p
  | [] => fun _ h => nomatch h
  | v :: vs => by
    rw [compactItems, List.forall_mem_cons]
    exact ⟨lineFeed_not_mem_compact v, lineFeed_not_mem_compactItems vs⟩

theorem lineFeed_not_mem_compactFields :
    ∀ fs : List (Text × Value), ∀ p ∈ compactFields fs, '\n' ∉ p
  | [] => fun _ h => nomatch h
  | (name, v) :: fs => by
    rw [compactFields, List.forall_mem_cons]
    refine ⟨?_, lineFeed_not_mem_compactFields fs⟩
    simp [lineFeed_not_mem_stringText, lineFeed_not_mem_compact v]

end

end Value

end DotQuery
