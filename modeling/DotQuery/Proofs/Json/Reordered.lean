import DotQuery.Predicate.Eval
import DotQuery.Proofs.Json.DistinctNames

/-!
# Values up to the order of fields

`v.Reordered w` says that `w` is `v` but for the order of the fields of its objects, at any depth.
Loose comparison and predicates do not see that order: arrays are compared by their items in their
places, objects all have the same loose text, and a field is found by its name, which is the only
one of that name (`FieldsReordered.lookup`, `Chain.holds_of_reordered`).
-/

namespace DotQuery

namespace Value

mutual

/-- The same value, but for the order of fields. -/
inductive Reordered : Value → Value → Prop where
  | scalar {v : Value} (h : v.isScalar = true) : Reordered v v
  | array {vs ws : List Value} (items : ItemsReordered vs ws) : Reordered (array vs) (array ws)
  | object {fs gs : Fields Value} (fields : FieldsReordered fs gs) :
      Reordered (object fs) (object gs)

/-- Items keep their places. -/
inductive ItemsReordered : List Value → List Value → Prop where
  | nil : ItemsReordered [] []
  | cons {v w : Value} {vs ws : List Value} (head : Reordered v w)
      (tail : ItemsReordered vs ws) : ItemsReordered (v :: vs) (w :: ws)

/-- Each field has its counterpart, of the same name, at any place. -/
inductive FieldsReordered : Fields Value → Fields Value → Prop where
  | nil : FieldsReordered [] []
  | cons {name : Text} {v w : Value} {fs before after : Fields Value} (head : Reordered v w)
      (tail : FieldsReordered fs (before ++ after)) :
      FieldsReordered ((name, v) :: fs) (before ++ (name, w) :: after)

end

variable {v w : Value} {vs ws : List Value} {fs gs : Fields Value}

/-- A field that keeps its place. -/
theorem FieldsReordered.cons_cons {name : Text} (head : v.Reordered w)
    (tail : FieldsReordered fs gs) : FieldsReordered ((name, v) :: fs) ((name, w) :: gs) :=
  @FieldsReordered.cons name v w fs [] gs head tail

mutual

theorem Reordered.refl : ∀ v : Value, v.Reordered v
  | null => .scalar rfl
  | bool _ => .scalar rfl
  | number _ => .scalar rfl
  | string _ => .scalar rfl
  | array vs => .array (ItemsReordered.refl vs)
  | object fs => .object (FieldsReordered.refl fs)

theorem ItemsReordered.refl : ∀ vs : List Value, ItemsReordered vs vs
  | [] => .nil
  | v :: vs => .cons (Reordered.refl v) (ItemsReordered.refl vs)

theorem FieldsReordered.refl : ∀ fs : Fields Value, FieldsReordered fs fs
  | [] => .nil
  | (_, v) :: fs => .cons_cons (Reordered.refl v) (FieldsReordered.refl fs)

end

theorem ItemsReordered.forall₂ : ∀ {vs ws : List Value}, ItemsReordered vs ws →
    List.Forall₂ Reordered vs ws
  | _, _, .nil => .nil
  | _, _, .cons head tail => .cons head tail.forall₂

theorem itemsReordered_iff : ItemsReordered vs ws ↔ List.Forall₂ Reordered vs ws := by
  refine ⟨ItemsReordered.forall₂, fun h => ?_⟩
  induction h with
  | nil => exact .nil
  | cons head _ ih => exact .cons head ih

theorem FieldsReordered.perm_names : ∀ {fs gs : Fields Value}, FieldsReordered fs gs →
    (Fields.names fs).Perm (Fields.names gs)
  | _, _, .nil => .refl _
  | _, _, @FieldsReordered.cons name _ _ fs before after _ tail => by
    have htail : (Fields.names fs).Perm (Fields.names (before ++ after)) := tail.perm_names
    rw [Fields.names_append] at htail ⊢
    exact (htail.cons name).trans List.perm_middle.symm

theorem Reordered.kind_eq (h : v.Reordered w) : v.kind = w.kind := by cases h <;> rfl

/-! ## Fields -/

theorem lookup_append_cons_of_ne {m n : Text} (h : m ≠ n) (before after : Fields Value)
    (w : Value) :
    (before ++ (n, w) :: after).lookup m = (before ++ after).lookup m := by
  rw [List.lookup_append, List.lookup_append, List.lookup_cons, beq_false_of_ne h]

theorem lookup_append_cons_self {n : Text} {before : Fields Value} (h : n ∉ Fields.names before)
    (after : Fields Value) (w : Value) : (before ++ (n, w) :: after).lookup n = some w := by
  have hbefore : before.lookup n = none := by
    rw [List.lookup_eq_none_iff]
    intro f hf
    have hne : n ≠ f.1 := fun e => h (List.mem_map.mpr ⟨f, hf, e.symm⟩)
    simpa using hne
  simp [List.lookup_append, hbefore]

/-- A field is found by its name, wherever it is. -/
theorem FieldsReordered.lookup (name : Text) : ∀ {fs gs : Fields Value}, FieldsReordered fs gs →
    (Fields.names fs).Nodup → Option.Rel Reordered (fs.lookup name) (gs.lookup name)
  | _, _, .nil, _ => .none
  | _, _, @FieldsReordered.cons n _ _ fs before after head tail, hnodup => by
    have hfs : n ∉ Fields.names fs ∧ (Fields.names fs).Nodup := List.nodup_cons.mp hnodup
    by_cases h : name = n
    · subst h
      have hbefore : name ∉ Fields.names before := fun hmem => by
        refine hfs.1 (tail.perm_names.mem_iff.mpr ?_)
        rw [Fields.names_append]
        exact List.mem_append_left _ hmem
      rw [lookup_append_cons_self hbefore]
      simpa using head
    · rw [lookup_append_cons_of_ne h, List.lookup_cons, beq_false_of_ne h]
      exact tail.lookup name hfs.2

theorem Reordered.get? (h : v.Reordered w) (hv : v.DistinctNames) (name : Text) :
    Option.Rel Reordered (v.get? name) (w.get? name) := by
  cases h with
  | scalar h =>
    cases v with
    | array vs => cases h
    | object fs => cases h
    | _ => exact .none
  | array items => exact .none
  | object fields => exact fields.lookup name (distinctNames_object_iff.mp hv).1

/-! ## Loose comparison -/

mutual

theorem Reordered.text_eq : ∀ {v w : Value}, v.Reordered w → Loose.text v = Loose.text w
  | _, _, .scalar _ => rfl
  | _, _, .array items => by rw [Loose.text, Loose.text, items.texts_eq]
  | _, _, .object _ => rfl

theorem ItemsReordered.texts_eq : ∀ {vs ws : List Value}, ItemsReordered vs ws →
    Loose.texts vs = Loose.texts ws
  | _, _, .nil => rfl
  | _, _, .cons head tail => by rw [Loose.texts, Loose.texts, head.text_eq, tail.texts_eq]

end

theorem number_of_reordered {x y : Option Value} (h : Option.Rel Reordered x y) :
    Loose.number x = Loose.number y := by
  cases h with
  | none => rfl
  | some h =>
    cases h with
    | scalar _ => rfl
    | array items => rw [Loose.number, Loose.number, (Reordered.array items).text_eq]
    | object _ => rfl

theorem equal_of_reordered {x y : Option Value} (h : Option.Rel Reordered x y) (t : Text) :
    Loose.equal x t = Loose.equal y t := by
  cases h with
  | none => rfl
  | some h =>
    cases h with
    | scalar _ => rfl
    | array items => rw [Loose.equal, Loose.equal, (Reordered.array items).text_eq]
    | object _ => rfl

end Value

/-! ## Predicates -/

theorem Condition.holds_of_reordered {v w : Value} (h : v.Reordered w) (hv : v.DistinctNames)
    (c : Condition) : c.holds v = c.holds w := by
  have hfound := h.get? hv c.key
  simp only [holds, Value.number_of_reordered hfound, Value.equal_of_reordered hfound]

theorem Chain.holds_of_reordered {v w : Value} (h : v.Reordered w) (hv : v.DistinctNames)
    (chain : Chain) : chain.holds v = chain.holds w := by
  simp only [holds, Condition.holds_of_reordered h hv]

end DotQuery
