import DotQuery.Proofs.Toml.Tables
import DotQuery.Toml.Reader

/-!
# Distinct names in TOML

No table of a document that is read has two fields of one name (`Toml.distinctNames_of_ofText?`).
`Reader.Gives` is a property of all that a reader gives; the readers of values are nested, so what
they give is shown by induction on their fuel, for all of them together (`Toml.gives_nested`).
-/

namespace DotQuery.Toml

variable {v : Toml}

/-! ## Steps of readers -/

/-- All that the reader gives has a property. -/
def Reader.Gives {α : Type} (x : Reader α) (P : α → Prop) : Prop :=
  ∀ t a rest, x.run t = some (a, rest) → P a

namespace Reader

variable {α β : Type} {P : α → Prop} {Q : β → Prop} {x : Reader α} {f : α → Reader β}

theorem gives_pure {a : α} (h : P a) : Gives (pure a) P := by
  intro t b rest hb
  cases hb
  exact h

theorem gives_failure : Gives failure P := fun _ _ _ h => nomatch h

theorem gives_bind (hx : x.Gives P) (hf : ∀ a, P a → (f a).Gives Q) : (x >>= f).Gives Q := by
  intro t b rest hb
  obtain ⟨⟨a, u⟩, ha, hb⟩ := Option.bind_eq_some_iff.mp hb
  exact hf a (hx t a u ha) u b rest hb

/-- What comes first does not matter. -/
theorem gives_then (hf : ∀ a, (f a).Gives Q) : (x >>= f).Gives Q :=
  gives_bind (P := fun _ => True) (fun _ _ _ _ => trivial) fun a _ => hf a

theorem gives_ite {c : Prop} [Decidable c] {y : Reader α} (hx : x.Gives P) (hy : y.Gives P) :
    Gives (if c then x else y) P := by
  split
  · exact hx
  · exact hy

/-- What is taken off the text before decides alone. -/
theorem gives_ofOption {o : Option α} (h : ∀ a, o = some a → P a) :
    (ofFunction fun rest => o.map (·, rest)).Gives P := by
  intro t a rest ha
  obtain ⟨b, hb, he⟩ := Option.map_eq_some_iff.mp ha
  cases he
  exact h a hb

end Reader

open Reader

/-! ## Scalars -/

theorem distinctNames_float? {t : Text} (h : float? t = some v) : v.DistinctNames := by
  unfold float? at h
  dsimp only at h
  split at h
  · cases h
    exact .float _
  · split at h
    · cases h
      exact .float _
    · obtain ⟨l, -, rfl⟩ := Option.map_eq_some_iff.mp h
      exact .float _

theorem distinctNames_scalar? {t : Text} (h : scalar? t = some v) : v.DistinctNames := by
  unfold scalar? at h
  split at h
  · cases h
    exact .boolean true
  · split at h
    · cases h
      exact .boolean false
    · split at h
      · next i _ =>
        cases h
        exact .integer i
      · next hfloat _ =>
        cases h
        exact distinctNames_float? hfloat
      · next d _ _ _ =>
        cases h
        exact .datetime d
      · cases h

theorem gives_word (word : Text) :
    (ofFunction fun rest => (scalar? word).map (·, rest)).Gives DistinctNames :=
  gives_ofOption fun _ => distinctNames_scalar?

theorem gives_scalar : scalar.Gives DistinctNames := by
  unfold scalar
  refine gives_then fun t => ?_
  dsimp only
  split
  · exact gives_ite (gives_then fun _ => gives_word _) (gives_then fun _ => gives_word _)
  · exact gives_then fun _ => gives_word _

/-! ## Values -/

theorem gives_string (x : Reader Text) : Gives (do return .string (← x)) DistinctNames :=
  gives_then fun t => gives_pure (.string t)

/-- By induction on the fuel, for the three readers together. -/
theorem gives_nested (fuel : Nat) :
    (∀ depth, (value fuel depth).Gives DistinctNames) ∧
      (∀ depth, (items fuel depth).Gives fun vs => ∀ v ∈ vs, v.DistinctNames) ∧
      ∀ depth, (inlineFields fuel depth).Gives fun fs => ∀ f ∈ fs, f.2.DistinctNames := by
  induction fuel with
  | zero => exact ⟨fun _ => gives_failure, fun _ => gives_failure, fun _ => gives_failure⟩
  | succ fuel ih =>
    obtain ⟨hvalue, hitems, hfields⟩ := ih
    refine ⟨fun depth => ?_, fun depth => ?_, fun depth => ?_⟩
    · have harray : Gives (do return .array (← items fuel (depth + 1))) DistinctNames :=
        gives_bind (hitems _) fun vs hvs => gives_pure (.array hvs)
      have htable (fields : List (List Text × Toml)) (h : ∀ f ∈ fields, f.2.DistinctNames) :
          (ofFunction fun t => (inlineTable? fields []).map (·, t)).Gives DistinctNames :=
        gives_ofOption fun _ => distinctNames_inlineTable? h .nil
      -- the branches of `value` in order: four sorts of strings, arrays, tables, and words
      refine gives_then fun _ => gives_ite (gives_string _) ?_
      refine gives_then fun _ => gives_ite (gives_string _) ?_
      refine gives_then fun _ => gives_ite (gives_string _) ?_
      refine gives_then fun _ => gives_ite (gives_string _) ?_
      refine gives_then fun _ => gives_ite (gives_then fun _ => harray) ?_
      refine gives_then fun _ => gives_ite ?_ gives_scalar
      refine gives_then fun _ => gives_then fun _ => gives_then fun _ => gives_ite ?_ ?_
      · exact gives_pure (.table .nil nofun)
      · exact gives_bind (hfields _) htable
    · unfold items
      refine gives_then fun _ => gives_then fun _ => gives_ite (gives_pure nofun) ?_
      refine gives_bind (hvalue depth) fun v hv => gives_then fun _ => gives_then fun _ => ?_
      refine gives_ite (gives_bind (hitems depth) fun vs hvs => ?_) (gives_then fun _ => ?_)
      · exact gives_pure (List.forall_mem_cons.mpr ⟨hv, hvs⟩)
      · exact gives_pure (List.forall_mem_singleton.mpr hv)
    · unfold inlineFields
      refine gives_then fun name => gives_then fun _ => gives_then fun _ => ?_
      refine gives_bind (hvalue depth) fun v hv => gives_then fun _ => gives_then fun _ => ?_
      refine gives_ite (gives_bind (hfields depth) fun fs hfs => ?_) (gives_then fun _ => ?_)
      · exact gives_pure (List.forall_mem_cons.mpr ⟨hv, hfs⟩)
      · exact gives_pure (List.forall_mem_singleton.mpr hv)

/-! ## Documents -/

theorem gives_statement : statement.Gives Statement.DistinctNames := by
  unfold statement
  refine gives_then fun _ => gives_ite ?_ (gives_then fun _ => gives_ite ?_ ?_)
  · exact gives_then fun _ => gives_then fun _ => gives_pure trivial
  · exact gives_then fun _ => gives_then fun _ => gives_pure trivial
  · refine gives_then fun _ => gives_then fun _ => gives_then fun _ => gives_then fun _ => ?_
    exact gives_bind ((gives_nested _).1 0) fun v hv => gives_pure hv

theorem gives_statements (fuel : Nat) :
    (statements fuel).Gives fun found => ∀ s ∈ found, s.DistinctNames := by
  induction fuel with
  | zero => exact gives_failure
  | succ fuel ih =>
    unfold statements
    refine gives_then fun _ => gives_then fun _ => gives_ite (gives_pure nofun) ?_
    refine gives_bind gives_statement fun s hs => gives_then fun _ => ?_
    exact gives_bind ih fun found hfound => gives_pure (List.forall_mem_cons.mpr ⟨hs, hfound⟩)

theorem distinctNames_of_ofText? {t : Text} {fields : Fields Toml} (h : ofText? t = some fields) :
    (Toml.table fields).DistinctNames := by
  obtain ⟨⟨found, rest⟩, hfound, h⟩ := Option.bind_eq_some_iff.mp h
  obtain ⟨nodes, hnodes, rfl⟩ := Option.map_eq_some_iff.mp h
  have hstatements := gives_statements _ _ _ _ hfound
  exact (keeps_build hstatements [] _ _ .nil hnodes).toToml

end DotQuery.Toml
