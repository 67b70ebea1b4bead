import DotQuery.Json.Printer
import DotQuery.Proofs.Json.Reordered
import DotQuery.Proofs.Query.Laziness
import DotQuery.Proofs.Query.Selection

/-!
# The order of fields is not looked at

Two runs of a query, on values that differ only in the order of fields, stay in step: each segment
makes of two such values the same error, nothing on both sides, or two such values again
(`Segment.sameAnswer_apply`), and so does a whole run (`Run.sameAnswer`). Names of a value are
distinct at the start and stay distinct on the way; projections, which build objects, name each
field once.
-/

namespace DotQuery

/-! ## Values -/

namespace Value

/-- Names are distinct, and `w` is `v` but for the order of fields. -/
def UpToOrder (v w : Value) : Prop := v.DistinctNames ∧ v.Reordered w

variable {v w : Value} {vs ws : List Value} {x y : Option Value}

theorem upToOrder_of_isScalar (h : v.isScalar = true) : v.UpToOrder v :=
  ⟨distinctNames_of_isScalar h, .scalar h⟩

theorem upToOrder_array_iff :
    (array vs).UpToOrder (array ws) ↔ List.Forall₂ UpToOrder vs ws := by
  unfold UpToOrder
  rw [List.forall₂_and_left, ← itemsReordered_iff, ← distinctNames_array_iff]
  constructor
  · rintro ⟨hdistinct, hreordered⟩
    cases hreordered with
    | scalar h => cases h
    | array items => exact ⟨hdistinct, items⟩
  · rintro ⟨hdistinct, items⟩
    exact ⟨hdistinct, .array items⟩

theorem rel_upToOrder (hx : ∀ u, x = some u → u.DistinctNames) (h : Option.Rel Reordered x y) :
    Option.Rel UpToOrder x y := by
  cases h with
  | none => exact .none
  | some h => exact .some ⟨hx _ rfl, h⟩

namespace UpToOrder

theorem get? (h : v.UpToOrder w) (name : Text) :
    Option.Rel UpToOrder (v.get? name) (w.get? name) :=
  rel_upToOrder (fun _ hu => h.1.get? hu) (h.2.get? h.1 name)

theorem getElem? (h : List.Forall₂ UpToOrder vs ws) (place : Nat) :
    Option.Rel UpToOrder vs[place]? ws[place]? := by
  induction h generalizing place with
  | nil => exact .none
  | cons head _ ih =>
    cases place with
    | zero => exact .some head
    | succ place => exact ih place

theorem field (h : v.UpToOrder w) (name : Text) :
    Option.Rel UpToOrder (v.field name) (w.field name) := by
  obtain ⟨hdistinct, hreordered⟩ := h
  cases hreordered with
  | scalar h =>
    cases v with
    | array vs => cases h
    | object fs => cases h
    | _ => exact .some (upToOrder_of_isScalar rfl)
  | array items =>
    have hitems := upToOrder_array_iff.mp ⟨hdistinct, .array items⟩
    exact .some (upToOrder_array_iff.mpr
      (List.rel_filterMap (fun _ _ hu => hu.get? name) hitems))
  | object fields => exact get? ⟨hdistinct, .object fields⟩ name

/-! ### Projections -/

theorem names_project_sublist (names : List Text) (v : Value) :
    (Fields.names (names.filterMap fun name => (v.get? name).map fun w => (name, w))).Sublist
      names := by
  induction names with
  | nil => exact .refl _
  | cons name names ih =>
    cases h : v.get? name with
    | none =>
      rw [List.filterMap_cons_none (by rw [h]; rfl)]
      exact ih.cons name
    | some u =>
      rw [List.filterMap_cons_some (by rw [h]; rfl)]
      exact ih.cons_cons name

theorem fieldsReordered_project (h : v.UpToOrder w) (names : List Text) :
    FieldsReordered (names.filterMap fun name => (v.get? name).map fun u => (name, u))
      (names.filterMap fun name => (w.get? name).map fun u => (name, u)) := by
  induction names with
  | nil => exact .nil
  | cons name names ih =>
    have hname := h.get? name
    simp only [List.filterMap_cons]
    generalize v.get? name = x, w.get? name = y at hname
    cases hname with
    | none => exact ih
    | some hu => exact .cons_cons hu.2 ih

theorem project (h : v.UpToOrder w) {names : List Text} (hnames : names.Nodup) :
    (v.project names).UpToOrder (w.project names) := by
  refine ⟨distinctNames_object_iff.mpr ⟨hnames.sublist (names_project_sublist names v), ?_⟩,
    .object (h.fieldsReordered_project names)⟩
  intro f hf
  obtain ⟨name, -, hname⟩ := List.mem_filterMap.mp hf
  obtain ⟨u, hu, rfl⟩ := Option.map_eq_some_iff.mp hname
  exact h.1.get? hu

theorem projection (h : v.UpToOrder w) {names : List Text} (hnames : names.Nodup) :
    (v.projection names).UpToOrder (w.projection names) := by
  obtain ⟨hdistinct, hreordered⟩ := h
  cases hreordered with
  | scalar h =>
    cases v with
    | array vs => cases h
    | object fs => cases h
    | _ => exact upToOrder_of_isScalar rfl
  | array items =>
    have hitems := upToOrder_array_iff.mp ⟨hdistinct, .array items⟩
    exact upToOrder_array_iff.mpr (List.rel_map (fun _ _ hu => hu.project hnames) hitems)
  | object fields => exact project ⟨hdistinct, .object fields⟩ hnames

/-! ### Filters -/

theorem narrow? (h : Option.Rel UpToOrder x y) (chain : Chain) :
    Option.Rel UpToOrder (narrow? chain x) (narrow? chain y) := by
  cases h with
  | none => exact .none
  | @some v w h =>
    obtain ⟨hdistinct, hreordered⟩ := h
    cases hreordered with
    | scalar h =>
      cases v with
      | array vs => cases h
      | _ => exact .none
    | array items =>
      have hitems := upToOrder_array_iff.mp ⟨hdistinct, .array items⟩
      refine .some (upToOrder_array_iff.mpr (List.rel_filter (fun u u' hu => ?_) hitems))
      exact iff_of_eq (congrArg (· = true) (Chain.holds_of_reordered hu.2 hu.1 chain))
    | object _ => exact .none

theorem getD (h : v.UpToOrder w) (hxy : Option.Rel UpToOrder x y) :
    (x.getD v).UpToOrder (y.getD w) := by
  cases hxy with
  | none => exact h
  | some hxy => exact hxy

theorem narrow (h : v.UpToOrder w) (name : Option Text) (chain : Chain) :
    (v.narrow name chain).UpToOrder (w.narrow name chain) := by
  cases name with
  | none => exact h.getD (narrow? (.some h) chain)
  | some name => exact h.getD (narrow? (h.get? name) chain)

end UpToOrder

end Value

/-! ## Segments and runs -/

/-- The same error, nothing on both sides, or two values that stand in a relation. -/
inductive SameAnswer (R : Value → Value → Prop) :
    Except ExecutionError (Option Value) → Except ExecutionError (Option Value) → Prop where
  | error (e : ExecutionError) : SameAnswer R (.error e) (.error e)
  | absent : SameAnswer R (.ok none) (.ok none)
  | value {v w : Value} (h : R v w) : SameAnswer R (.ok (some v)) (.ok (some w))

theorem SameAnswer.ok {R : Value → Value → Prop} {x y : Option Value} (h : Option.Rel R x y) :
    SameAnswer R (.ok x) (.ok y) := by
  cases h with
  | none => exact .absent
  | some h => exact .value h

theorem SameAnswer.imp {R S : Value → Value → Prop} (hRS : ∀ v w, R v w → S v w)
    {a b : Except ExecutionError (Option Value)} (h : SameAnswer R a b) : SameAnswer S a b := by
  cases h with
  | error e => exact .error e
  | absent => exact .absent
  | value h => exact .value (hRS _ _ h)

theorem Segment.sameAnswer_apply {s : Segment}
    (hs : ∀ names, s = .projection names → names.Nodup) (n : Nat) {v w : Value}
    (h : v.UpToOrder w) : SameAnswer Value.UpToOrder (s.apply n v) (s.apply n w) := by
  cases s with
  | field name => exact .ok (h.field name)
  | index place =>
    by_cases hkind : v.kind = .array
    · obtain ⟨hdistinct, hreordered⟩ := h
      cases hreordered with
      | scalar h => cases v <;> cases h <;> cases hkind
      | array items =>
        exact .ok (Value.UpToOrder.getElem?
          (Value.upToOrder_array_iff.mp ⟨hdistinct, .array items⟩) place)
      | object _ => cases hkind
    · have hkind' : w.kind ≠ .array := h.2.kind_eq ▸ hkind
      rw [apply_index_of_ne_array hkind, apply_index_of_ne_array hkind', h.2.kind_eq]
      exact .error _
  | projection names => exact .value (h.projection (hs names rfl))
  | filter name p =>
    simp only [apply]
    cases p.chain with
    | error cause => exact .error _
    | ok chain => exact .value (h.narrow name chain)

/-- What every segment preserves between two values, a run preserves. -/
theorem Run.sameAnswer {R : Value → Value → Prop} {ss : List Segment}
    (h : ∀ s ∈ ss, ∀ n v w, R v w → SameAnswer R (s.apply n v) (s.apply n w)) (n : Nat)
    {v w : Value} (hvw : R v w) :
    SameAnswer R (runSegments n ss (some v)).result (runSegments n ss (some w)).result := by
  induction ss generalizing n v w with
  | nil => exact .value hvw
  | cons s ss ih =>
    rw [List.forall_mem_cons] at h
    have hstep : SameAnswer R (s.apply n v) (s.apply n w) := h.1 n v w hvw
    rw [Run.result_cons, Run.result_cons]
    generalize s.apply n v = a, s.apply n w = b at hstep
    cases hstep with
    | error e => exact .error e
    | absent =>
      simp only [Except.bind, Run.result_none]
      exact .absent
    | value hvw => exact ih h.2 (n + 1) hvw

/-! ## Queries -/

namespace Query

variable {q : Query} {d d' : Value}

theorem sameAnswer_of_reordered (hq : q.Faithful) (hd : d.DistinctNames) (h : d.Reordered d') :
    SameAnswer Value.Reordered (q.execute d).result (q.execute d').result ∧
      ∀ chain : Chain, chain.holds d = chain.holds d' := by
  refine ⟨?_, Chain.holds_of_reordered h hd⟩
  have hrun : SameAnswer Value.UpToOrder (q.execute d).result (q.execute d').result := by
    refine Run.sameAnswer (fun s hs n v w hvw => ?_) 0 ⟨hd, h⟩
    exact Segment.sameAnswer_apply (fun names e => hq.nodup_names (e ▸ hs)) n hvw
  exact hrun.imp fun v w hvw => hvw.2

/-- A row is kept for the loose text of an array with an object in it, and is projected; what is
left to differ is the order inside that object. -/
theorem sameAnswer_of_rows :
    let x : Text × Value := (['x'], .null)
    let y : Text × Value := (['y'], .array [])
    let a (fields : List (Text × Value)) : Text × Value := (['a'], .array [.null, .object fields])
    let b : Text × Value := (['b'], .bool true)
    let n : Text × Value := (['n'], .null)
    let d : Value := .object [n, (['r'], .array [.object [a [x, y], b], .null])]
    let d' : Value := .object [(['r'], .array [.object [b, a [y, x]], .null]), n]
    let t := "r[a==,[object Object]].{b,a}".toList
    let q : Query := ⟨t, [.filter (some ['r']) (.ofText "a==,[object Object]".toList),
      .projection [['b'], ['a']]]⟩
    q.Faithful ∧ Value.ofJson? d.compact = some d ∧ d.DistinctNames ∧ d.Reordered d' ∧
      (q.execute d).result = .ok (some (.array [.object [b, a [x, y]]])) ∧
      (q.execute d').result = .ok (some (.array [.object [b, a [y, x]]])) ∧
      SameAnswer Value.Reordered (q.execute d).result (q.execute d').result := by
  intro x y a b n d d' t q
  have hq : q.Faithful := faithful_of_compile (t := t) (by decide)
  have hread : Value.ofJson? d.compact = some d := rfl
  have hd : d.DistinctNames := Value.distinctNames_of_ofJson? hread
  have hxy : Value.Reordered (.object [x, y]) (.object [y, x]) :=
    .object (@Value.FieldsReordered.cons _ _ _ _ [y] [] (.refl _) (.refl _))
  have ha : Value.Reordered (a [x, y]).2 (a [y, x]).2 :=
    .array (.cons (.refl _) (.cons hxy .nil))
  have hrow : Value.Reordered (.object [a [x, y], b]) (.object [b, a [y, x]]) :=
    .object (@Value.FieldsReordered.cons _ _ _ _ [b] [] ha (.refl _))
  have hrows : Value.Reordered (.array [.object [a [x, y], b], .null])
      (.array [.object [b, a [y, x]], .null]) :=
    .array (.cons hrow (.cons (.refl _) .nil))
  have h : d.Reordered d' :=
    .object (@Value.FieldsReordered.cons _ _ _ _ [_] [] (.refl _) (.cons_cons hrows .nil))
  exact ⟨hq, hread, hd, h, rfl, rfl, (sameAnswer_of_reordered hq hd h).1⟩

end Query

end DotQuery
