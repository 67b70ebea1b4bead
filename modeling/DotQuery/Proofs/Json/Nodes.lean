import Mathlib.Data.List.Flatten
import Mathlib.Data.List.Perm.Subperm
import DotQuery.Json.Value

/-!
# Nodes and leaves

The nodes of a value are its scalars, arrays and objects, depth first, and its leaves the scalars
among them. `Value.Within` compares two values by both, with the leaves in order, `Value.Among`
without their order. Items, fields and parts of arrays are within a value, and an object of fields
taken out of another, each once, is among it.
-/

namespace DotQuery.Value

mutual

/-- All scalars, arrays and objects of a value, each in front of what it holds. -/
def nodes : Value → List Value
  | array items => array items :: nodesOfItems items
  | object fields => object fields :: nodesOfFields fields
  | v => [v]

def nodesOfItems : List Value → List Value
  | [] => []
  | v :: vs => v.nodes ++ nodesOfItems vs

def nodesOfFields : List (Text × Value) → List Value
  | [] => []
  | (_, v) :: fs => v.nodes ++ nodesOfFields fs

end

def isScalar : Value → Bool
  | array _ => false
  | object _ => false
  | _ => true

/-- The scalars of a value in depth-first order. -/
def leaves (v : Value) : List Value := v.nodes.filter isScalar

variable {r u v w : Value} {vs ws : List Value} {fields : List (Text × Value)}

theorem nodesOfItems_eq (vs : List Value) : nodesOfItems vs = vs.flatMap nodes := by
  induction vs with
  | nil => rfl
  | cons v vs ih => rw [nodesOfItems, ih, List.flatMap_cons]

theorem nodesOfFields_eq (fields : List (Text × Value)) :
    nodesOfFields fields = fields.flatMap fun f => f.2.nodes := by
  induction fields with
  | nil => rfl
  | cons f fields ih =>
    obtain ⟨name, v⟩ := f
    rw [nodesOfFields, ih, List.flatMap_cons]

theorem nodes_array (vs : List Value) : (array vs).nodes = array vs :: vs.flatMap nodes := by
  rw [nodes, nodesOfItems_eq]

theorem nodes_object (fields : List (Text × Value)) :
    (object fields).nodes = object fields :: fields.flatMap fun f => f.2.nodes := by
  rw [nodes, nodesOfFields_eq]

theorem leaves_array (vs : List Value) : (array vs).leaves = vs.flatMap leaves := by
  rw [leaves, nodes_array, List.filter_cons_of_neg Bool.false_ne_true, List.filter_flatMap]
  rfl

theorem leaves_object (fields : List (Text × Value)) :
    (object fields).leaves = fields.flatMap fun f => f.2.leaves := by
  rw [leaves, nodes_object, List.filter_cons_of_neg Bool.false_ne_true, List.filter_flatMap]
  rfl

theorem leaves_array_cons (v : Value) (vs : List Value) :
    (array (v :: vs)).leaves = v.leaves ++ (array vs).leaves := by
  rw [leaves_array, leaves_array, List.flatMap_cons]

theorem length_nodes_array_cons (v : Value) (vs : List Value) :
    (array (v :: vs)).nodes.length = v.nodes.length + (array vs).nodes.length := by
  rw [nodes_array, nodes_array, List.flatMap_cons, List.length_cons, List.length_append,
    List.length_cons, Nat.add_assoc]

theorem length_nodes_pos (v : Value) : 0 < v.nodes.length := by
  cases v <;> exact Nat.succ_pos _

/-! ## Parts in order -/

/-- All leaves of `r` are leaves of `v`, in their order, and `r` has no more nodes. -/
structure Within (r v : Value) : Prop where
  leaves : r.leaves.Sublist v.leaves
  size : r.nodes.length ≤ v.nodes.length

namespace Within

theorem refl (v : Value) : v.Within v := ⟨.refl _, Nat.le_refl _⟩

theorem trans (h : u.Within v) (h' : v.Within w) : u.Within w :=
  ⟨h.leaves.trans h'.leaves, Nat.le_trans h.size h'.size⟩

theorem of_sublist (h : vs.Sublist ws) : (array vs).Within (array ws) where
  leaves := by
    rw [leaves_array, leaves_array]
    exact h.flatMap _
  size := by
    rw [nodes_array, nodes_array, List.length_cons, List.length_cons]
    exact Nat.succ_le_succ (h.flatMap _).length_le

theorem cons (h : v.Within w) (hs : (array vs).Within (array ws)) :
    (array (v :: vs)).Within (array (w :: ws)) where
  leaves := by
    rw [leaves_array_cons, leaves_array_cons]
    exact h.leaves.append hs.leaves
  size := by
    rw [length_nodes_array_cons, length_nodes_array_cons]
    exact Nat.add_le_add h.size hs.size

theorem sublist_flatMap_of_mem {α β : Type} {a : α} {l : List α} (h : a ∈ l) (f : α → List β) :
    (f a).Sublist (l.flatMap f) := by
  rw [← List.flatMap_singleton f a]
  exact (List.singleton_sublist.mpr h).flatMap f

theorem of_mem (h : v ∈ vs) : v.Within (array vs) where
  leaves := by
    rw [leaves_array]
    exact sublist_flatMap_of_mem h Value.leaves
  size := by
    rw [nodes_array, List.length_cons]
    exact Nat.le_succ_of_le (sublist_flatMap_of_mem h nodes).length_le

theorem of_mem_fields {f : Text × Value} (h : f ∈ fields) : f.2.Within (object fields) where
  leaves := by
    rw [leaves_object]
    exact sublist_flatMap_of_mem h fun f => f.2.leaves
  size := by
    rw [nodes_object, List.length_cons]
    exact Nat.le_succ_of_le (sublist_flatMap_of_mem h fun f => f.2.nodes).length_le

theorem filterMap {f : Value → Option Value} (h : ∀ v w, f v = some w → w.Within v)
    (vs : List Value) : (array (vs.filterMap f)).Within (array vs) := by
  induction vs with
  | nil => exact refl _
  | cons v vs ih =>
    cases hf : f v with
    | none =>
      rw [List.filterMap_cons_none hf]
      exact ih.trans (of_sublist (List.sublist_cons_self v vs))
    | some w =>
      rw [List.filterMap_cons_some hf]
      exact (h v w hf).cons ih

end Within

/-! ## Parts in any order -/

/-- The leaves of `r` are some of the leaves of `v`, each as often at most, and `r` has no more
nodes. -/
structure Among (r v : Value) : Prop where
  leaves : r.leaves.Subperm v.leaves
  size : r.nodes.length ≤ v.nodes.length

theorem Within.among (h : r.Within v) : r.Among v := ⟨h.leaves.subperm, h.size⟩

namespace Among

theorem refl (v : Value) : v.Among v := (Within.refl v).among

theorem trans (h : u.Among v) (h' : v.Among w) : u.Among w :=
  ⟨h.leaves.trans h'.leaves, Nat.le_trans h.size h'.size⟩

theorem cons (h : v.Among w) (hs : (array vs).Among (array ws)) :
    (array (v :: vs)).Among (array (w :: ws)) where
  leaves := by
    rw [leaves_array_cons, leaves_array_cons]
    exact h.leaves.append hs.leaves
  size := by
    rw [length_nodes_array_cons, length_nodes_array_cons]
    exact Nat.add_le_add h.size hs.size

theorem map {f : Value → Value} (h : ∀ v, (f v).Among v) (vs : List Value) :
    (array (vs.map f)).Among (array vs) := by
  induction vs with
  | nil => exact refl _
  | cons v vs ih => exact (h v).cons ih

theorem subperm_flatMap {α β : Type} {l l' : List α} (h : l.Subperm l') (f : α → List β) :
    (l.flatMap f).Subperm (l'.flatMap f) := by
  obtain ⟨m, hperm, hsub⟩ := h
  exact ⟨m.flatMap f, hperm.flatMap_right f, hsub.flatMap f⟩

theorem of_subperm {fields' : List (Text × Value)} (h : fields.Subperm fields') :
    (object fields).Among (object fields') where
  leaves := by
    rw [leaves_object, leaves_object]
    exact subperm_flatMap h _
  size := by
    rw [nodes_object, nodes_object, List.length_cons, List.length_cons]
    exact Nat.succ_le_succ (subperm_flatMap h _).length_le

end Among

end DotQuery.Value
