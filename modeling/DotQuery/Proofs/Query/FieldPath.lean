import DotQuery.Proofs.Query.Run

/-!
# Fields of the items of an array

Fields one after the other, on an array, give for each item what its objects hold on the path of
these names (`Value.fieldPath?`), and nothing for an item in which the path ends early: at a name
that an object does not have, or at a value that is no object (`Query.execute_fields`).
-/

namespace DotQuery

namespace Value

/-- The value at the end of a path of names through objects. -/
def fieldPath? : List Text → Value → Option Value
  | [], v => some v
  | name :: names, v => (v.get? name).bind (fieldPath? names)

variable {v w : Value} {name : Text}

theorem fieldPath?_append (names names' : List Text) (v : Value) :
    fieldPath? (names ++ names') v = (fieldPath? names v).bind (fieldPath? names') := by
  induction names generalizing v with
  | nil => rfl
  | cons name names ih =>
    rw [List.cons_append, fieldPath?, fieldPath?, Option.bind_assoc]
    exact congrArg _ (funext ih)

theorem get?_of_kind_ne_object (h : v.kind ≠ .object) (name : Text) : v.get? name = none := by
  cases v with
  | object fields => exact absurd rfl h
  | _ => rfl

/-- A path leads nowhere from where it ends early. -/
theorem fieldPath?_of_get?_eq_none {before : List Text} (hw : fieldPath? before v = some w)
    (h : w.get? name = none) (after : List Text) :
    fieldPath? (before ++ name :: after) v = none := by
  rw [fieldPath?_append, hw, Option.bind_some, fieldPath?, h, Option.bind_none]

theorem fieldPath?_eq_none_iff {names : List Text} : fieldPath? names v = none ↔
    ∃ before name after w, names = before ++ name :: after ∧ fieldPath? before v = some w ∧
      w.get? name = none := by
  constructor
  · intro h
    induction names generalizing v with
    | nil => cases h
    | cons name names ih =>
      rw [fieldPath?] at h
      cases hname : v.get? name with
      | none => exact ⟨[], name, names, v, rfl, rfl, hname⟩
      | some u =>
        rw [hname] at h
        obtain ⟨before, last, after, w, rfl, hw, hlast⟩ := ih h
        refine ⟨name :: before, last, after, w, rfl, ?_, hlast⟩
        rw [fieldPath?, hname]
        exact hw
  · rintro ⟨before, name, after, w, rfl, hw, hname⟩
    exact fieldPath?_of_get?_eq_none hw hname after

end Value

/-! ## Runs over fields -/

theorem Run.result_fields_array (n : Nat) (names : List Text) (items : List Value) :
    (runSegments n (names.map Segment.field) (some (.array items))).result =
      .ok (some (.array (items.filterMap (Value.fieldPath? names)))) := by
  induction names generalizing n items with
  | nil =>
    have hall : items.filterMap (Value.fieldPath? []) = items := List.filterMap_some
    rw [hall]
    rfl
  | cons name names ih =>
    have happly : (Segment.field name).apply n (.array items) =
        .ok (some (.array (items.filterMap (Value.get? name)))) := rfl
    have hfuse : (items.filterMap (Value.get? name)).filterMap (Value.fieldPath? names) =
        items.filterMap (Value.fieldPath? (name :: names)) := List.filterMap_filterMap
    rw [List.map_cons, result_cons, happly, ← hfuse]
    exact ih (n + 1) _

theorem Query.execute_fields (source : Text) (names : List Text) (items : List Value) :
    (execute ⟨source, names.map .field⟩ (.array items)).result =
        .ok (some (.array (items.filterMap (Value.fieldPath? names)))) ∧
      (∀ v, Value.fieldPath? names v = none ↔
        ∃ before name after w, names = before ++ name :: after ∧
          Value.fieldPath? before v = some w ∧ w.get? name = none) ∧
      (∀ v before name after w, names = before ++ name :: after →
        Value.fieldPath? before v = some w → w.kind ≠ .object →
        Value.fieldPath? names v = none) ∧
      (∀ v ∈ items, Value.fieldPath? names v = some .null →
        .null ∈ items.filterMap (Value.fieldPath? names)) := by
  refine ⟨Run.result_fields_array 0 names items, fun v => Value.fieldPath?_eq_none_iff, ?_, ?_⟩
  · rintro v before name after w rfl hw hkind
    exact Value.fieldPath?_of_get?_eq_none hw (Value.get?_of_kind_ne_object hkind name) after
  · intro v hv hnull
    exact List.mem_filterMap.mpr ⟨v, hv, hnull⟩

/-- A `null` at the end is kept. An item that is an array, or has an array or a scalar on the way,
is dropped, whatever is inside. -/
theorem Query.execute_fields_array_on_the_way :
    let one (name : Char) (v : Value) : Value := .object [([name], v)]
    let names : List Text := [['a'], ['b']]
    let items : List Value := [one 'a' (one 'b' .null), one 'a' (.array [one 'b' .null]),
      .array [one 'a' (one 'b' .null)], one 'a' (.bool true), one 'b' .null,
      one 'a' (one 'b' (.string ['x']))]
    (execute ⟨"a.b".toList, names.map .field⟩ (.array items)).result =
        .ok (some (.array [.null, .string ['x']])) ∧
      Value.fieldPath? names (one 'a' (one 'b' .null)) = some .null ∧
      Value.fieldPath? names (one 'a' (.array [one 'b' .null])) = none ∧
      .null ∈ items.filterMap (Value.fieldPath? names) := by
  intro one names items
  have hnull : Value.fieldPath? names (one 'a' (one 'b' .null)) = some .null := rfl
  obtain ⟨hresult, -, hkind, hkept⟩ := execute_fields "a.b".toList names items
  refine ⟨hresult.trans rfl, hnull, ?_, hkept _ List.mem_cons_self hnull⟩
  exact hkind _ [['a']] ['b'] [] (.array [one 'b' .null]) rfl rfl nofun

end DotQuery
