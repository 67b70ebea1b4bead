import DotQuery.Proofs.Json.Nodes
import DotQuery.Proofs.Query.Cache

/-!
# Results are parts of the document

What a query finds holds no scalar that the document does not hold as often, and no more nodes
(`Query.result_among_document`). Each segment but a projection even keeps the order of the scalars;
a projection names each field once, so it takes none twice. What every segment says of its value and
its result, a run says of the document and its result, if it can be chained (`Run.related`).
-/

namespace DotQuery

/-! ## Names of projections -/

theorem Query.Faithful.nodup_names {q : Query} (hq : q.Faithful) {names : List Text}
    (h : .projection names ∈ q.segments) : names.Nodup := by
  obtain ⟨piece, -, -, hnodup, -⟩ := hq.exists_piece h
  exact hnodup

/-! ## Parts that segments take -/

namespace Value

variable {name : Text} {v w : Value}

theorem within_of_get? (h : v.get? name = some w) : w.Within v := by
  cases v with
  | object fields =>
    obtain ⟨before, after, hfields, -⟩ := List.lookup_eq_some_iff.mp h
    have hmem : (name, w) ∈ fields := by simp [hfields]
    exact Within.of_mem_fields hmem
  | _ => cases h

theorem within_of_field (h : v.field name = some w) : w.Within v := by
  cases v with
  | array items =>
    cases h
    exact Within.filterMap (fun v w hw => within_of_get? hw) items
  | object fields => exact within_of_get? h
  | _ =>
    cases h
    exact .refl _

theorem within_of_narrow? {chain : Chain} {target : Option Value}
    (h : narrow? chain target = some w) : ∃ u, target = some u ∧ w.Within u := by
  cases target with
  | none => cases h
  | some u =>
    cases u with
    | array items =>
      cases h
      exact ⟨_, rfl, Within.of_sublist List.filter_sublist⟩
    | _ => cases h

theorem within_getD_narrow? {chain : Chain} {target : Option Value}
    (htarget : ∀ u, target = some u → u.Within v) : ((narrow? chain target).getD v).Within v := by
  cases h : narrow? chain target with
  | none => exact .refl v
  | some w =>
    obtain ⟨u, hu, hw⟩ := within_of_narrow? h
    exact hw.trans (htarget u hu)

theorem within_narrow (name : Option Text) (chain : Chain) (v : Value) :
    (v.narrow name chain).Within v := by
  cases name with
  | none => exact within_getD_narrow? fun u hu => Option.some.inj hu ▸ .refl v
  | some name => exact within_getD_narrow? fun u hu => within_of_get? hu

/-- The fields that a projection takes out of an object are some of its fields, each once. -/
theorem subperm_filterMap_lookup {names : List Text} (h : names.Nodup)
    (fields : List (Text × Value)) :
    (names.filterMap fun name => (fields.lookup name).map fun w => (name, w)).Subperm fields := by
  refine List.Nodup.subperm (List.Nodup.filterMap ?_ h) ?_
  · intro m n f hm hn
    obtain ⟨v, -, rfl⟩ := Option.map_eq_some_iff.mp hm
    obtain ⟨w, -, hw⟩ := Option.map_eq_some_iff.mp hn
    exact (congrArg Prod.fst hw).symm
  · intro f hf
    obtain ⟨name, -, hname⟩ := List.mem_filterMap.mp hf
    obtain ⟨w, hw, rfl⟩ := Option.map_eq_some_iff.mp hname
    obtain ⟨before, after, hfields, -⟩ := List.lookup_eq_some_iff.mp hw
    simp [hfields]

theorem project_among {names : List Text} (h : names.Nodup) (v : Value) :
    (v.project names).Among v := by
  cases v with
  | object fields => exact Among.of_subperm (subperm_filterMap_lookup h fields)
  | _ =>
    -- everything but an object becomes the empty object
    simp only [project, get?, Option.map_none, List.filterMap_none]
    exact ⟨List.nil_subperm, length_nodes_pos _⟩

theorem projection_among {names : List Text} (h : names.Nodup) (v : Value) :
    (v.projection names).Among v := by
  cases v with
  | array items => exact Among.map (project_among h) items
  | object fields => exact project_among h _
  | _ => exact .refl _

end Value

/-! ## Segments and runs -/

theorem Segment.within_of_apply {s : Segment} (hs : ∀ names, s ≠ .projection names) {n : Nat}
    {v w : Value} (h : s.apply n v = .ok (some w)) : w.Within v := by
  cases s with
  | field name => exact Value.within_of_field (Except.ok.inj h)
  | index place =>
    cases v with
    | array items => exact Value.Within.of_mem (List.mem_of_getElem? (Except.ok.inj h))
    | _ => cases h
  | projection names => exact absurd rfl (hs names)
  | filter name p =>
    simp only [apply] at h
    cases hp : p.chain with
    | error cause =>
      rw [hp] at h
      cases h
    | ok chain =>
      rw [hp] at h
      cases h
      exact Value.within_narrow name chain v

theorem Segment.among_of_apply {s : Segment} (hs : ∀ names, s = .projection names → names.Nodup)
    {n : Nat} {v w : Value} (h : s.apply n v = .ok (some w)) : w.Among v := by
  cases s with
  | projection names =>
    cases h
    exact Value.projection_among (hs names rfl) v
  | _ => exact (within_of_apply (by nofun) h).among

theorem Run.related {R : Value → Value → Prop} (refl : ∀ v, R v v)
    (trans : ∀ u v w, R u v → R v w → R u w) {ss : List Segment}
    (h : ∀ s ∈ ss, ∀ n v w, s.apply n v = .ok (some w) → R w v) {n : Nat} {v r : Value}
    (hr : (runSegments n ss (some v)).result = .ok (some r)) : R r v := by
  induction ss generalizing n v with
  | nil =>
    cases hr
    exact refl _
  | cons s ss ih =>
    rw [List.forall_mem_cons] at h
    rw [Run.result_cons] at hr
    cases hs : s.apply n v with
    | error e =>
      rw [hs] at hr
      cases hr
    | ok x =>
      rw [hs] at hr
      cases x with
      | none =>
        rw [Except.bind, Run.result_none] at hr
        cases hr
      | some w => exact trans r w v (ih h.2 hr) (h.1 n v w hs)

/-! ## Queries -/

namespace Query

variable {q : Query} {d r : Value}

theorem result_among_document (hq : q.Faithful) (hr : (q.execute d).result = .ok (some r)) :
    r.leaves.Subperm d.leaves ∧ r.nodes.length ≤ d.nodes.length ∧
      ((∀ names, .projection names ∉ q.segments) → r.leaves.Sublist d.leaves) := by
  have hamong : r.Among d := by
    refine Run.related Value.Among.refl (fun u v w => Value.Among.trans) ?_ hr
    intro s hs n v w hw
    exact Segment.among_of_apply (fun names e => hq.nodup_names (e ▸ hs)) hw
  refine ⟨hamong.leaves, hamong.size, fun hprojection => ?_⟩
  have hwithin : r.Within d := by
    refine Run.related Value.Within.refl (fun u v w => Value.Within.trans) ?_ hr
    intro s hs n v w hw
    exact Segment.within_of_apply (fun names e => hprojection names (e ▸ hs)) hw
  exact hwithin.leaves

/-- A projection behind a filter turns two fields around and leaves an empty object of a number. -/
theorem result_among_document_projected :
    let row (a b : Text) : Value := .object [(['a'], .string a), (['b'], .string b)]
    let t := "rows[a!=x].{b,a,b}".toList
    let q : Query := ⟨t, [.filter (some "rows".toList) (.ofText "a!=x".toList),
      .projection [['b'], ['a']]]⟩
    let d : Value := .object
      [("rows".toList, .array [row ['x'] ['y'], row ['z'] ['w'], .number (.whole 1)])]
    let r : Value := .array [.object [(['b'], .string ['w']), (['a'], .string ['z'])], .object []]
    q.Faithful ∧ (q.execute d).result = .ok (some r) ∧ r.leaves.Subperm d.leaves ∧
      r.nodes.length ≤ d.nodes.length ∧ r.leaves = [.string ['w'], .string ['z']] ∧
      d.leaves =
        [.string ['x'], .string ['y'], .string ['z'], .string ['w'], .number (.whole 1)] := by
  intro row t q d r
  have hq : q.Faithful := faithful_of_compile (t := t) (by decide)
  have hr : (q.execute d).result = .ok (some r) := rfl
  obtain ⟨hleaves, hsize, -⟩ := result_among_document hq hr
  exact ⟨hq, hr, hleaves, hsize, rfl, rfl⟩

end Query

end DotQuery
