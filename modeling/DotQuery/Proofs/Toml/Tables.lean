import DotQuery.Proofs.Json.DistinctNames
import DotQuery.Toml.Table

/-!
# Changes of TOML tables

No statement of a document makes two fields of one name in a table (`Toml.keeps_build`), and neither
does an inline table (`Toml.distinctNames_inlineTable?`), since both set fields by `Fields.put`.
`Edit.Keeps` says so of a change of a table.
-/

namespace DotQuery.Toml

/-! ## Values and nodes -/

/-- No table in the value has two fields of one name. -/
inductive DistinctNames : Toml → Prop where
  | string (t : Text) : DistinctNames (.string t)
  | integer (i : Int) : DistinctNames (.integer i)
  | float (x : Option Double) : DistinctNames (.float x)
  | boolean (b : Bool) : DistinctNames (.boolean b)
  | datetime (t : Text) : DistinctNames (.datetime t)
  | array {items : List Toml} (items_distinct : ∀ v ∈ items, DistinctNames v) :
      DistinctNames (.array items)
  | table {fields : Fields Toml} (nodup : fields.names.Nodup)
      (fields_distinct : ∀ f ∈ fields, DistinctNames f.2) : DistinctNames (.table fields)

/-- No table in the node has two fields of one name. -/
inductive Node.DistinctNames : Node → Prop where
  | value {v : Toml} (h : v.DistinctNames) : DistinctNames (.value v)
  | table {origin : Origin} {fields : Fields Node} (nodup : fields.names.Nodup)
      (fields_distinct : ∀ f ∈ fields, DistinctNames f.2) : DistinctNames (.table origin fields)
  | tables {done : List (Fields Node)} {last : Fields Node}
      (nodup : ∀ fields ∈ done ++ [last], fields.names.Nodup)
      (fields_distinct : ∀ fields ∈ done ++ [last], ∀ f ∈ fields, DistinctNames f.2) :
      DistinctNames (.tables done last)

/-- The fields of a table without two fields of one name, in it or below it. -/
structure Distinct (fields : Fields Node) : Prop where
  nodup : fields.names.Nodup
  nodes : ∀ f ∈ fields, f.2.DistinctNames

variable {v : Toml} {n : Node} {fields : Fields Node} {name : Text}

theorem fieldsToToml_eq (fields : Fields Node) :
    fieldsToToml fields = fields.map fun f => (f.1, f.2.toToml) := by
  induction fields with
  | nil => rfl
  | cons f fields ih => rw [fieldsToToml, ih, List.map_cons]

theorem tablesToToml_eq (ts : List (Fields Node)) :
    tablesToToml ts = ts.map fun fields => .table (fieldsToToml fields) := by
  induction ts with
  | nil => rfl
  | cons t ts ih => rw [tablesToToml, ih, List.map_cons]

theorem names_fieldsToToml (fields : Fields Node) :
    Fields.names (fieldsToToml fields) = fields.names := by
  rw [fieldsToToml_eq, Fields.names, List.map_map]
  rfl

theorem distinctNames_fieldsToToml (hnodup : fields.names.Nodup)
    (h : ∀ f ∈ fields, f.2.toToml.DistinctNames) :
    (Toml.table (fieldsToToml fields)).DistinctNames := by
  refine .table ((names_fieldsToToml fields).symm ▸ hnodup) ?_
  rw [fieldsToToml_eq, List.forall_mem_map]
  exact h

theorem Node.DistinctNames.toToml (h : n.DistinctNames) : n.toToml.DistinctNames := by
  induction h with
  | value h => exact h
  | table nodup _ ih => exact distinctNames_fieldsToToml nodup ih
  | @tables done last nodup _ ih =>
    have htables : ∀ t ∈ tablesToToml (done ++ [last]), t.DistinctNames := by
      rw [tablesToToml_eq, List.forall_mem_map]
      exact fun fields hmem => distinctNames_fieldsToToml (nodup fields hmem) (ih fields hmem)
    rw [tablesToToml_eq, List.map_append, ← tablesToToml_eq] at htables
    exact .array htables

namespace Distinct

theorem nil : Distinct [] := ⟨.nil, nofun⟩

theorem put (h : Distinct fields) (name : Text) (hn : n.DistinctNames) :
    Distinct (fields.put name n) :=
  ⟨Fields.nodup_names_put h.nodup name n, Fields.of_mem_put hn h.nodes⟩

theorem lookup (h : Distinct fields) (hn : fields.lookup name = some n) : n.DistinctNames := by
  obtain ⟨before, after, hfields, -⟩ := List.lookup_eq_some_iff.mp hn
  exact h.nodes (name, n) (by simp [hfields])

theorem toToml (h : Distinct fields) : (Toml.table (fieldsToToml fields)).DistinctNames :=
  distinctNames_fieldsToToml h.nodup fun f hf => (h.nodes f hf).toToml

end Distinct

theorem Node.distinctNames_table_iff {origin : Origin} :
    (Node.table origin fields).DistinctNames ↔ Distinct fields := by
  constructor
  · rintro ⟨⟩
    next hnodup hfields => exact ⟨hnodup, hfields⟩
  · exact fun h => .table h.nodup h.nodes

theorem Node.distinctNames_tables_iff {done : List (Fields Node)} {last : Fields Node} :
    (Node.tables done last).DistinctNames ↔ ∀ fields ∈ done ++ [last], Distinct fields := by
  constructor
  · rintro ⟨⟩ fields hmem
    next hnodup hfields => exact ⟨hnodup fields hmem, hfields fields hmem⟩
  · exact fun h => .tables (fun fs hfs => (h fs hfs).nodup) fun fs hfs => (h fs hfs).nodes

/-! ## Changes of tables -/

/-- The change leaves no two fields of one name where there were none. -/
def Edit.Keeps (f : Edit) : Prop := ∀ fields gs, Distinct fields → f fields = some gs → Distinct gs

theorem Edit.Keeps.put_table {f : Edit} (hf : f.Keeps) {inner gs : Fields Node} {origin : Origin}
    (h : Distinct fields) (hinner : Distinct inner)
    (hgs : ((f inner).map fun inner => fields.put name (.table origin inner)) = some gs) :
    Distinct gs := by
  obtain ⟨after, hafter, rfl⟩ := Option.map_eq_some_iff.mp hgs
  exact h.put name (Node.distinctNames_table_iff.mpr (hf _ _ hinner hafter))

theorem Edit.Keeps.put_tables {f : Edit} (hf : f.Keeps) {done : List (Fields Node)}
    {last gs : Fields Node} (h : Distinct fields) (htables : (Node.tables done last).DistinctNames)
    (hgs : ((f last).map fun last => fields.put name (.tables done last)) = some gs) :
    Distinct gs := by
  obtain ⟨hdone, hlast⟩ := List.forall_mem_append.mp (Node.distinctNames_tables_iff.mp htables)
  obtain ⟨after, hafter, rfl⟩ := Option.map_eq_some_iff.mp hgs
  have hafter := hf _ _ (List.forall_mem_singleton.mp hlast) hafter
  refine h.put name (Node.distinctNames_tables_iff.mpr ?_)
  exact List.forall_mem_append.mpr ⟨hdone, List.forall_mem_singleton.mpr hafter⟩

theorem keeps_openTable (name : Text) : (openTable name).Keeps := by
  intro fields gs h hgs
  unfold openTable at hgs
  split at hgs
  · cases hgs
    exact h.put name (.table .nil nofun)
  · next inner hlookup =>
    cases hgs
    have hinner := Node.distinctNames_table_iff.mp (h.lookup hlookup)
    exact h.put name (Node.distinctNames_table_iff.mpr hinner)
  · cases hgs

theorem keeps_openItem (name : Text) : (openItem name).Keeps := by
  intro fields gs h hgs
  unfold openItem at hgs
  split at hgs
  · cases hgs
    refine h.put name (Node.distinctNames_tables_iff.mpr ?_)
    exact List.forall_mem_singleton.mpr .nil
  · next done last hlookup =>
    cases hgs
    have htables := Node.distinctNames_tables_iff.mp (h.lookup hlookup)
    refine h.put name (Node.distinctNames_tables_iff.mpr ?_)
    exact List.forall_mem_append.mpr ⟨htables, List.forall_mem_singleton.mpr .nil⟩
  · cases hgs

theorem keeps_inHeader {f : Edit} (hf : f.Keeps) (path : List Text) : (inHeader path f).Keeps := by
  induction path with
  | nil => exact hf
  | cons name path ih =>
    intro fields gs h hgs
    unfold inHeader at hgs
    split at hgs
    · exact Edit.Keeps.put_table ih h .nil hgs
    · next origin inner hlookup =>
      exact Edit.Keeps.put_table ih h (Node.distinctNames_table_iff.mp (h.lookup hlookup)) hgs
    · next done last hlookup => exact Edit.Keeps.put_tables ih h (h.lookup hlookup) hgs
    · cases hgs

theorem keeps_assign (hv : v.DistinctNames) (key : List Text) : (Toml.assign v key).Keeps := by
  induction key with
  | nil => exact fun _ _ _ hgs => nomatch hgs
  | cons name key ih =>
    intro fields gs h hgs
    cases key with
    | nil =>
      unfold Toml.assign at hgs
      split at hgs
      · cases hgs
      · cases hgs
        exact h.put name (.value hv)
    | cons name' key =>
      unfold Toml.assign at hgs
      split at hgs
      · exact Edit.Keeps.put_table ih h .nil hgs
      · next inner hlookup =>
        exact Edit.Keeps.put_table ih h (Node.distinctNames_table_iff.mp (h.lookup hlookup)) hgs
      · next inner hlookup =>
        split at hgs
        · cases hgs
        · exact Edit.Keeps.put_table ih h (Node.distinctNames_table_iff.mp (h.lookup hlookup)) hgs
      · next done last hlookup =>
        split at hgs
        · cases hgs
        · exact Edit.Keeps.put_tables ih h (h.lookup hlookup) hgs
      · cases hgs

/-! ## Documents -/

/-- The values in a statement have no two fields of one name. -/
def Statement.DistinctNames : Statement → Prop
  | .assign _ v => v.DistinctNames
  | _ => True

theorem Edit.Keeps.bind {f g : Edit} (hf : f.Keeps) (hg : g.Keeps) :
    Edit.Keeps fun fields => (f fields).bind g := by
  intro fields gs h hgs
  obtain ⟨between, hbetween, hgs⟩ := Option.bind_eq_some_iff.mp hgs
  exact hg _ _ (hf _ _ h hbetween) hgs

theorem keeps_build {statements : List Statement} (h : ∀ s ∈ statements, s.DistinctNames)
    (current : List Text) : (build current statements).Keeps := by
  induction statements generalizing current with
  | nil =>
    intro fields gs hfields hgs
    cases hgs
    exact hfields
  | cons s statements ih =>
    rw [List.forall_mem_cons] at h
    cases s with
    | header path =>
      intro fields gs hfields hgs
      unfold build at hgs
      split at hgs
      · cases hgs
      · next name _ =>
        exact (keeps_inHeader (keeps_openTable name) _).bind (ih h.2 path) _ _ hfields hgs
    | itemHeader path =>
      intro fields gs hfields hgs
      unfold build at hgs
      split at hgs
      · cases hgs
      · next name _ =>
        exact (keeps_inHeader (keeps_openItem name) _).bind (ih h.2 path) _ _ hfields hgs
    | assign key v => exact (keeps_inHeader (keeps_assign h.1 key) current).bind (ih h.2 current)

theorem distinctNames_inlineTable? {assigned : List (List Text × Toml)}
    (h : ∀ a ∈ assigned, a.2.DistinctNames) (hfields : Distinct fields)
    (hv : inlineTable? assigned fields = some v) : v.DistinctNames := by
  induction assigned generalizing fields with
  | nil =>
    cases hv
    exact hfields.toToml
  | cons a assigned ih =>
    rw [List.forall_mem_cons] at h
    obtain ⟨between, hbetween, hv⟩ := Option.bind_eq_some_iff.mp hv
    exact ih h.2 (keeps_assign h.1 a.1 _ _ hfields hbetween) hv

end DotQuery.Toml
