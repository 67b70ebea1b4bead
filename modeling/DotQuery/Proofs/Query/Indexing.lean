import DotQuery.Proofs.Query.PlainPath
import DotQuery.Proofs.Query.Reach
import DotQuery.Proofs.Text.Numerals

/-!
# Indices

A piece of a query that is a run of digits is an index. It is compiled to the number that the digits
denote, or to the largest number of 64 bits if that is smaller (`Segment.ofText_of_digits`). No
array of fewer than 2^64 items tells these two apart, so each run of digits, however long and with
however many zeros in front, finds the item at the number itself (`Query.item_at_digits`).
-/

namespace DotQuery

variable {t : Text} {n : Nat}

/-! ## Digits -/

theorem not_mem_of_isDigit {c : Char} (h : ∀ d ∈ t, isDigit d = true) (hc : isDigit c = false) :
    c ∉ t := by
  intro hmem
  rw [h c hmem] at hc
  cases hc

/-! ## Segments -/

theorem Segment.ofText_of_digits (hne : t ≠ []) (h : Digits 10 t n) :
    ofText t = index (min n (2 ^ 64 - 1)) := by
  obtain ⟨rfl, hdigits⟩ := Text.natural_of_digits h
  rw [ofText_of_not_mem (not_mem_of_isDigit hdigits rfl) (not_mem_of_isDigit hdigits rfl),
    if_pos (Text.allDigits_iff.mpr ⟨hne, hdigits⟩)]
  rfl

/-- From the length of a list on, all places are as good as any other. -/
theorem getElem?_min {α : Type} {items : List α} {m : Nat} (h : items.length ≤ m) (n : Nat) :
    items[min n m]? = items[n]? := by
  rcases Nat.le_total n m with hn | hn
  · rw [Nat.min_eq_left hn]
  · rw [Nat.min_eq_right hn, List.getElem?_eq_none h, List.getElem?_eq_none (Nat.le_trans h hn)]

theorem Segment.apply_of_digits (hne : t ≠ []) (h : Digits 10 t n) {items : List Value}
    (hlength : items.length < 2 ^ 64) (position : Nat) :
    (ofText t).apply position (.array items) = .ok items[n]? := by
  rw [ofText_of_digits hne h, apply, getElem?_min (Nat.le_sub_one_of_lt hlength)]

/-! ## Queries -/

/-- A run up to a segment that is reached ends as that segment does. -/
theorem Run.result_take_of_reached {k i : Nat} {ss : List Segment} {s : Segment}
    {v : Option Value} {w : Value} (hs : ss[i]? = some s) (h : ReachesFrom k ss v i w) :
    (runSegments k (ss.take (i + 1)) v).result = s.apply (k + i) w := by
  obtain ⟨hi, hw⟩ := h
  have hlength : (ss.take i).length = i := List.length_take_of_le (Nat.le_of_lt hi)
  rw [List.take_add_one, hs, Option.toList_some, result_append, hw, hlength]
  change (runSegments (k + i) [s] (some w)).result = _
  rw [result_cons]
  cases s.apply (k + i) w <;> rfl

theorem Query.item_at_digits (hne : t ≠ []) (hdigits : ∀ c ∈ t, isDigit c = true) :
    ∃ n, Digits 10 t n ∧ Segment.ofText t = .index (min n (2 ^ 64 - 1)) ∧
      ∀ items : List Value, items.length < 2 ^ 64 →
        (Value.array items).query t = .ok items[n]? ∧
        ∀ u q i d, Query.compile u = .ok q → (pieces u)[i]? = some t →
          q.Reaches d i (.array items) →
          (runSegments 0 (q.segments.take (i + 1)) (some d)).result = .ok items[n]? := by
  have h := digits_natural hdigits
  refine ⟨t.natural, h, Segment.ofText_of_digits hne h, fun items hlength => ⟨?_, ?_⟩⟩
  · have hcompile : Query.compile t = .ok ⟨t, [.ofText t]⟩ := by
      rw [Query.compile_of_not_mem (not_mem_of_isDigit hdigits rfl)
        (not_mem_of_isDigit hdigits rfl), Text.splitOn_of_not_mem (not_mem_of_isDigit hdigits rfl)]
      rfl
    have happly := Segment.apply_of_digits hne h hlength 0
    rw [Value.query_of_compile hcompile, Query.execute, Run.result_cons, happly]
    rfl
  · intro u q i d hq hpiece hreached
    have hs : q.segments[i]? = some (.ofText t) := by
      rw [Query.segments_of_compile hq, segmentsOf, List.getElem?_map, hpiece]
      rfl
    rw [Run.result_take_of_reached hs hreached]
    exact Segment.apply_of_digits hne h hlength _

/-- Zeros in front of 1, behind a field, and a number of 65 bits, of which the lower 64 are 1. -/
theorem Query.item_at_digits_long :
    let one := "00000000000000000000000001".toList
    let large := "18446744073709551617".toList
    let items : List Value := [.null, .bool true]
    let d : Value := .object [(['a'], .array items)]
    let q : Query := ⟨"a.".toList ++ one, [.field ['a'], .index 1]⟩
    one ≠ [] ∧ (∀ c ∈ one, isDigit c = true) ∧ (∀ c ∈ large, isDigit c = true) ∧
      Query.compile ("a.".toList ++ one) = .ok q ∧ q.Reaches d 1 (.array items) ∧
      (runSegments 0 (q.segments.take 2) (some d)).result = .ok (some (.bool true)) ∧
      (Value.array items).query large = .ok none := by
  intro one large items d q
  have hone : ∀ c ∈ one, isDigit c = true := List.all_eq_true.mp rfl
  have hlarge : ∀ c ∈ large, isDigit c = true := List.all_eq_true.mp rfl
  have hlength : items.length < 2 ^ 64 := by decide
  have hq : Query.compile ("a.".toList ++ one) = .ok q := by decide
  have hpiece : (pieces ("a.".toList ++ one))[1]? = some one := by decide
  have hreached : q.Reaches d 1 (.array items) := ⟨by decide, rfl⟩
  obtain ⟨n, hn, -, hitem⟩ := item_at_digits (List.cons_ne_nil _ _) hone
  obtain ⟨m, hm, -, hlast⟩ := item_at_digits (List.cons_ne_nil _ _) hlarge
  have hn : n = 1 := (Text.natural_of_digits hn).1.symm.trans (by decide)
  have hm : m = 18446744073709551617 := (Text.natural_of_digits hm).1.symm.trans (by decide)
  subst hn hm
  exact ⟨List.cons_ne_nil _ _, hone, hlarge, hq, hreached,
    (hitem items hlength).2 _ q 1 d hq hpiece hreached, (hlast items hlength).1⟩

end DotQuery
