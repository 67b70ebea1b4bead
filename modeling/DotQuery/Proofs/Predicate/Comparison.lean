import DotQuery.Predicate.Eval
import DotQuery.Proofs.Double.Order

/-!
# Comparisons in conditions

The four order operators compare the number of the field with the number of the text, so they agree
with each other wherever both are numbers and all fail where one is not. Equality goes its own way,
and is both orders at once where the field is a JSON number (`comparisons_coherent`).
-/

namespace DotQuery

theorem Number.isNan_toDouble (n : Number) : n.toDouble.isNan = false := by
  cases n with
  | whole i => exact Double.isNan_ofRank _ _
  | real x => rfl

namespace Loose

/-! Absent fields and objects have no number. -/

theorem isNan_number_none : (number none).isNan = true := rfl

theorem isNan_number_object (fields : List (Text × Value)) :
    (number (some (.object fields))).isNan = true := rfl

theorem equal_number (n : Number) (t : Text) :
    equal (some (.number n)) t =
      ((numberOfText t).le (number (some (.number n))) &&
        (number (some (.number n))).le (numberOfText t)) :=
  Double.eq_eq_le_and_le _ _

end Loose

namespace Condition

/-- The operators that compare numbers by their order. -/
def orderOperators : List Operator := [.atLeast, .atMost, .greater, .less]

theorem holds_of_isNan {c : Condition} {candidate : Value} (hop : c.operator ∈ orderOperators)
    (h : (Loose.number (candidate.get? c.key)).isNan = true ∨
      (Loose.numberOfText c.value).isNan = true) : c.holds candidate = false := by
  obtain ⟨key, op, value⟩ := c
  simp only [orderOperators, List.mem_cons, List.not_mem_nil, or_false] at hop
  rcases hop with rfl | rfl | rfl | rfl
  · exact Double.compareWith_of_isNan _ h.symm
  · exact Double.compareWith_of_isNan _ h
  · exact Double.compareWith_of_isNan _ h.symm
  · exact Double.compareWith_of_isNan _ h

theorem comparisons_coherent (candidate : Value) (key value : Text) :
    let left := Loose.number (candidate.get? key)
    let right := Loose.numberOfText value
    let holds (op : Operator) : Bool := (⟨key, op, value⟩ : Condition).holds candidate
    (left.isNan = true ∨ right.isNan = true → ∀ op ∈ orderOperators, holds op = false) ∧
      (candidate.get? key = none ∨ (∃ fields, candidate.get? key = some (.object fields)) →
        left.isNan = true) ∧
      (left.isNan = false → right.isNan = false →
        [holds .less, holds .greater, holds .atLeast && holds .atMost].count true = 1 ∧
          (holds .atLeast = true ↔ holds .less = false)) ∧
      (holds .unequal = true ↔ holds .equal = false) ∧
      ∀ n, candidate.get? key = some (.number n) →
        (holds .equal = true ↔ holds .atLeast = true ∧ holds .atMost = true) := by
  intro left right holds
  refine ⟨fun h op hop => holds_of_isNan hop h, ?_, fun hleft hright => ⟨?_, ?_⟩, ?_, ?_⟩
  · rintro (h | ⟨fields, h⟩)
    · simp only [left, h, Loose.isNan_number_none]
    · simp only [left, h, Loose.isNan_number_object]
  · exact Double.order_count hleft hright
  · have hle : holds .atLeast = !holds .less := Double.le_eq_not_lt hright hleft
    rw [hle, Bool.not_eq_true']
  · have hnot : holds .unequal = !holds .equal := rfl
    rw [hnot, Bool.not_eq_true']
  · intro n hn
    have hequal : holds .equal = (holds .atLeast && holds .atMost) := by
      simp only [holds, Condition.holds, hn]
      exact Loose.equal_number n value
    rw [hequal, Bool.and_eq_true]

/-- An array of one number has a number, an object and the text `abc` have none, and a JSON number
equals a text that is written in another radix. -/
theorem comparisons_coherent_mixed_fields :
    let candidate : Value := .object [(['a'], .array [.number (.whole 7)]),
      (['n'], .number (.whole 30)), (['o'], .object [])]
    let holds (key : Text) (op : Operator) (value : String) : Bool :=
      (⟨key, op, value.toList⟩ : Condition).holds candidate
    (Loose.number (candidate.get? ['a'])).isNan = false ∧
      (Loose.numberOfText "7".toList).isNan = false ∧ holds ['a'] .less "7" = false ∧
      holds ['a'] .atLeast "7" = true ∧
      (Loose.number (candidate.get? ['o'])).isNan = true ∧ holds ['o'] .atMost "1" = false ∧
      (Loose.numberOfText "abc".toList).isNan = true ∧ holds ['n'] .greater "abc" = false ∧
      candidate.get? ['n'] = some (.number (.whole 30)) ∧ holds ['n'] .equal "0x1e" = true ∧
      holds ['n'] .atLeast "0x1e" = true ∧ holds ['n'] .atMost "0x1e" = true := by
  intro candidate holds
  have hleft : (Loose.number (candidate.get? ['a'])).isNan = false := by decide +kernel
  have hright : (Loose.numberOfText "7".toList).isNan = false := by decide +kernel
  have hless : holds ['a'] .less "7" = false := by decide +kernel
  have hequal : holds ['n'] .equal "0x1e" = true := by decide +kernel
  obtain ⟨-, -, horder, -, -⟩ := comparisons_coherent candidate ['a'] "7".toList
  obtain ⟨hnan, hobject, -, -, -⟩ := comparisons_coherent candidate ['o'] "1".toList
  obtain ⟨htext, -, -, -, -⟩ := comparisons_coherent candidate ['n'] "abc".toList
  obtain ⟨-, -, -, -, hboth⟩ := comparisons_coherent candidate ['n'] "0x1e".toList
  have ho := hobject (.inr ⟨[], rfl⟩)
  have habc : (Loose.numberOfText "abc".toList).isNan = true := by decide +kernel
  exact ⟨hleft, hright, hless, (horder hleft hright).2.mpr hless,
    ho, hnan (.inl ho) .atMost (by decide),
    habc, htext (.inr habc) .greater (by decide),
    rfl, hequal, (hboth _ rfl).mp hequal⟩

end Condition

end DotQuery
