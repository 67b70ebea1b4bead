import DotQuery.Proofs.Query.Run
import DotQuery.Proofs.Text.Fields

/-!
# Projections after each other

A projection keeps what a later step asks for by a name that it lists, and nothing else
(`Value.get?_project`). So a field of a projection is that field of the value itself, and of two
projections after each other the second decides on the order and both on the names
(`Run.projections_fuse`).
-/

namespace DotQuery

namespace Value

variable {name : Text} {names names' : List Text}

/-! ## Objects -/

theorem get?_project (names : List Text) (name : Text) (v : Value) :
    (v.project names).get? name = if name ∈ names then v.get? name else none :=
  Fields.lookup_filterMap (fun name => v.get? name) names name

theorem project_project (names names' : List Text) (v : Value) :
    (v.project names).project names' = v.project (names'.filter (· ∈ names)) := by
  have hfield : ∀ name, ((v.project names).get? name).map (fun w => (name, w)) =
      if name ∈ names then (v.get? name).map (fun w => (name, w)) else none := fun name => by
    rw [get?_project]
    split <;> rfl
  calc (v.project names).project names'
      = object (names'.filterMap fun name =>
          if name ∈ names then (v.get? name).map (fun w => (name, w)) else none) :=
        congrArg object (List.filterMap_congr fun name _ => hfield name)
    _ = v.project (names'.filter (· ∈ names)) := by
        rw [project, List.filterMap_filter]
        simp only [decide_eq_true_eq]

/-! ## All values -/

theorem projection_projection (names names' : List Text) (v : Value) :
    (v.projection names).projection names' = v.projection (names'.filter (· ∈ names)) := by
  cases v with
  | array items =>
    have hitem : (project names' ∘ project names : Value → Value) =
        project (names'.filter (· ∈ names)) := funext (project_project names names')
    simp only [projection, List.map_map, hitem]
  | object fields => exact project_project names names' (object fields)
  | _ => rfl

theorem field_projection (h : name ∈ names) (v : Value) :
    (v.projection names).field name = v.field name := by
  have hitem : ∀ w : Value, (w.project names).get? name = w.get? name := fun w => by
    rw [get?_project, if_pos h]
  cases v with
  | array items =>
    simp only [projection, field, List.filterMap_map, Function.comp_def, hitem]
  | object fields => exact hitem (object fields)
  | _ => rfl

end Value

/-! ## Runs -/

namespace Run

theorem result_projection (n : Nat) (names : List Text) (ss : List Segment) (v : Value) :
    (runSegments n (.projection names :: ss) (some v)).result =
      (runSegments (n + 1) ss (some (v.projection names))).result :=
  result_cons n (.projection names) ss v

theorem result_field (n : Nat) (name : Text) (v : Value) :
    (runSegments n [.field name] (some v)).result = .ok (v.field name) := by
  rw [result_cons]
  rfl

/-- Where the fields of an object stand makes no difference. -/
theorem result_projection_object (n : Nat) (names : List Text) {fields fields' : Fields Value}
    (h : (Fields.names fields).Nodup) (hperm : fields.Perm fields') :
    (runSegments n [.projection names] (some (.object fields'))).result =
      .ok (some (.object
        (names.filterMap fun name => (fields.lookup name).map fun w => (name, w)))) := by
  have htaken : (names.filterMap fun name => (fields'.lookup name).map fun w => (name, w)) =
      names.filterMap fun name => (fields.lookup name).map fun w => (name, w) :=
    List.filterMap_congr fun name _ => by rw [Fields.lookup_of_perm h hperm]
  rw [result_projection, ← htaken]
  rfl

theorem projections_fuse (n : Nat) {names : List Text} (hnames : names.Nodup) (v : Value) :
    (∀ name ∈ names, (runSegments n [.projection names, .field name] (some v)).result =
        (runSegments n [.field name] (some v)).result) ∧
      (∀ names', (runSegments n [.projection names, .projection names'] (some v)).result =
        (runSegments n [.projection (names'.filter (· ∈ names))] (some v)).result) ∧
      (runSegments n [.projection names, .projection names] (some v)).result =
        (runSegments n [.projection names] (some v)).result ∧
      ∀ fields, (Fields.names fields).Nodup →
        ∃ taken, (∀ fields', fields.Perm fields' →
            (runSegments n [.projection names] (some (.object fields'))).result =
              .ok (some (.object taken))) ∧
          Fields.names taken = names.filter (· ∈ Fields.names fields) ∧
          (∀ name ∈ names, taken.lookup name = fields.lookup name) ∧
          taken = Fields.takeEach names fields := by
  have hfuse : ∀ names', (runSegments n [.projection names, .projection names'] (some v)).result =
      (runSegments n [.projection (names'.filter (· ∈ names))] (some v)).result := fun names' => by
    rw [result_projection, result_projection, result_projection, Value.projection_projection]
    rfl
  have hself : names.filter (· ∈ names) = names :=
    List.filter_eq_self.mpr fun name hname => decide_eq_true hname
  refine ⟨fun name hname => ?_, hfuse, ?_, ?_⟩
  · rw [result_projection, result_field, result_field, Value.field_projection hname]
  · rw [hfuse, hself]
  · intro fields hfields
    refine ⟨_, fun fields' hperm => result_projection_object n names hfields hperm, ?_, ?_,
      (Fields.takeEach_eq hnames hfields).symm⟩
    · rw [Fields.names_filterMap]
      exact List.filter_congr fun name _ =>
        Bool.eq_iff_iff.mpr (Fields.isSome_lookup_iff.trans decide_eq_true_iff.symm)
    · intro name hname
      rw [Fields.lookup_filterMap, if_pos hname]

/-- Taking `b` out of the object moves `c` in front of `d`, and the projection has `b` first all the
same. Of the items of an array, one that is no object becomes an empty one and has no field. -/
theorem projections_fuse_mixed_items :
    let names : List Text := [['b'], ['x'], ['a']]
    let a : Text × Value := (['a'], .null)
    let b : Text × Value := (['b'], .bool true)
    let c : Text × Value := (['c'], .string ['z'])
    let d : Text × Value := (['d'], .array [])
    let fields : Fields Value := [a, b, d, c]
    let items : Value := .array [.object fields, .string ['b'], .object [a], .array [.object [b]]]
    names.Nodup ∧ (Fields.names fields).Nodup ∧
      Fields.take? ['b'] fields = some (.bool true, [a, c, d]) ∧
      (runSegments 3 [.projection names] (some (.object fields.reverse))).result =
        .ok (some (.object [b, a])) ∧
      (runSegments 3 [.projection names, .field ['b']] (some items)).result =
        .ok (some (.array [.bool true])) ∧
      (runSegments 3 [.projection names, .projection [['c'], ['a'], ['b']]] (some items)).result =
        .ok (some (.array [.object [a, b], .object [], .object [a], .object []])) := by
  intro names a b c d fields items
  have hnames : names.Nodup := by decide
  have hfields : (Fields.names fields).Nodup := by decide
  obtain ⟨hfield, hprojection, -, hobject⟩ := projections_fuse 3 hnames items
  obtain ⟨taken, hresult, -, -, htaken⟩ := hobject fields hfields
  have hperm : fields.Perm fields.reverse := (List.reverse_perm fields).symm
  refine ⟨hnames, hfields, rfl, ?_, (hfield ['b'] (by decide)).trans rfl, ?_⟩
  · rw [hresult _ hperm, htaken]
    rfl
  · exact (hprojection [['c'], ['a'], ['b']]).trans rfl

end Run

end DotQuery
