import DotQuery.Loose
import DotQuery.Proofs.Text.Pieces

/-!
# Nested arrays as texts

The text of an array does not show how its items are nested: it joins the texts of the parts of the
array (`Loose.text_eq_joinWith_parts`), which are left when every array that has items is replaced
by them (`Value.parts`). An array without items is a part of its own, with an empty text. So an
array among the items can be replaced by its own items, if it has any, and both comparisons do not
see it.
-/

namespace DotQuery

namespace Value

mutual

/-- What is left when arrays that have items are replaced by their items, at all depths. -/
def parts : Value → List Value
  | array [] => [array []]
  | array (v :: vs) => v.parts ++ partsOfItems vs
  | v => [v]

def partsOfItems : List Value → List Value
  | [] => []
  | v :: vs => v.parts ++ partsOfItems vs

end

variable {vs : List Value}

theorem partsOfItems_eq (vs : List Value) : partsOfItems vs = vs.flatMap parts := by
  induction vs with
  | nil => rfl
  | cons v vs ih => rw [partsOfItems, ih, List.flatMap_cons]

theorem parts_array (h : vs ≠ []) : (array vs).parts = vs.flatMap parts := by
  cases vs with
  | nil => exact absurd rfl h
  | cons v vs => rw [parts, partsOfItems_eq, List.flatMap_cons]

theorem parts_ne_nil : ∀ v : Value, v.parts ≠ []
  | null => List.cons_ne_nil _ _
  | bool _ => List.cons_ne_nil _ _
  | number _ => List.cons_ne_nil _ _
  | string _ => List.cons_ne_nil _ _
  | object _ => List.cons_ne_nil _ _
  | array [] => List.cons_ne_nil _ _
  | array (v :: _) => List.append_ne_nil_of_left_ne_nil (parts_ne_nil v) _

mutual

/-- No array that has items is left. -/
theorem eq_nil_of_array_mem_parts : ∀ v : Value, array vs ∈ v.parts → vs = []
  | null, h => by cases List.mem_singleton.mp h
  | bool _, h => by cases List.mem_singleton.mp h
  | number _, h => by cases List.mem_singleton.mp h
  | string _, h => by cases List.mem_singleton.mp h
  | object _, h => by cases List.mem_singleton.mp h
  | array [], h => by
    cases List.mem_singleton.mp h
    rfl
  | array (v :: ws), h => by
    rcases List.mem_append.mp h with h | h
    · exact eq_nil_of_array_mem_parts v h
    · exact eq_nil_of_array_mem_partsOfItems ws h

theorem eq_nil_of_array_mem_partsOfItems : ∀ ws : List Value, array vs ∈ partsOfItems ws → vs = []
  | v :: ws, h => by
    rcases List.mem_append.mp h with h | h
    · exact eq_nil_of_array_mem_parts v h
    · exact eq_nil_of_array_mem_partsOfItems ws h

end

end Value

namespace Loose

open Value (parts partsOfItems)

mutual

theorem text_eq_joinWith_parts : ∀ v : Value, text v = Text.joinWith [','] (v.parts.map text)
  | .null => rfl
  | .bool _ => rfl
  | .number _ => rfl
  | .string _ => rfl
  | .object _ => rfl
  | .array [] => rfl
  | .array (v :: vs) => joinWith_texts (v :: vs)

theorem joinWith_texts : ∀ vs : List Value,
    Text.joinWith [','] (texts vs) = Text.joinWith [','] ((partsOfItems vs).map text)
  | [] => rfl
  | [v] => by
    rw [partsOfItems, partsOfItems, List.append_nil]
    exact text_eq_joinWith_parts v
  | v :: w :: vs => by
    have htexts : texts (w :: vs) ≠ [] := List.cons_ne_nil _ _
    have hparts : v.parts.map text ≠ [] := by simp [Value.parts_ne_nil]
    have hrest : (partsOfItems (w :: vs)).map text ≠ [] := by
      simp [partsOfItems, Value.parts_ne_nil]
    have hcons : partsOfItems (v :: w :: vs) = v.parts ++ partsOfItems (w :: vs) := rfl
    rw [texts, Text.joinWith_cons htexts, joinWith_texts (w :: vs), hcons, List.map_append,
      Text.joinWith_append _ hparts hrest, ← text_eq_joinWith_parts v]

end

/-- No comparison tells the values apart. -/
structure Alike (v w : Value) : Prop where
  text : text v = text w
  number : number (some v) = number (some w)
  equal : ∀ t, equal (some v) t = equal (some w) t

theorem alike_of_text_eq {vs ws : List Value} (h : text (.array vs) = text (.array ws)) :
    Alike (.array vs) (.array ws) where
  text := h
  number := congrArg numberOfText h
  equal t := congrArg (· == t) h

theorem alike_of_parts_eq {vs ws : List Value}
    (h : (Value.array vs).parts = (Value.array ws).parts) : Alike (.array vs) (.array ws) :=
  alike_of_text_eq (by rw [text_eq_joinWith_parts, h, ← text_eq_joinWith_parts])

/-! ## Items in place of arrays -/

theorem parts_unnested (xs zs : List Value) {ys : List Value} (h : ys ≠ []) :
    (Value.array (xs ++ [.array ys] ++ zs)).parts = (Value.array (xs ++ ys ++ zs)).parts := by
  have hnested : xs ++ [.array ys] ++ zs ≠ [] := by simp
  have hitems : xs ++ ys ++ zs ≠ [] := by simp [h]
  rw [Value.parts_array hnested, Value.parts_array hitems]
  simp only [List.flatMap_append, List.flatMap_singleton, Value.parts_array h]

theorem nested_items_flat (vs : List Value) :
    text (.array vs) = Text.joinWith [','] ((Value.array vs).parts.map text) ∧
      (∀ ws, .array ws ∈ (Value.array vs).parts → ws = []) ∧
      ∀ xs ys zs, vs = xs ++ [.array ys] ++ zs → ys ≠ [] →
        Alike (.array vs) (.array (xs ++ ys ++ zs)) := by
  refine ⟨text_eq_joinWith_parts _, fun ws => Value.eq_nil_of_array_mem_parts _, ?_⟩
  rintro xs ys zs rfl hys
  exact alike_of_parts_eq (parts_unnested xs zs hys)

/-- Nested twice, with an empty array, null and an empty text, each of which is an empty part. -/
theorem nested_items_flat_empty_parts :
    let nested : List Value := [.array [.array [], .array [.null, .string []]]]
    text (.array nested) = [',', ','] ∧ (Value.array nested).parts.length = 3 ∧
      Alike (.array nested) (.array [.array [], .array [.null, .string []]]) := by
  intro nested
  refine ⟨rfl, rfl, ?_⟩
  exact (nested_items_flat nested).2.2 [] _ [] rfl (List.cons_ne_nil _ _)

end Loose

end DotQuery
