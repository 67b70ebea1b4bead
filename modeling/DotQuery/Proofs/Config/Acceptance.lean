import DotQuery.Config
import DotQuery.Proofs.Toml.DistinctNames

/-!
# Accepted configurations

Validation accepts a configuration whose levels are levels and whose modules have names
(`Config.validate_eq_ok_iff`). In one that has been read, no module is named twice, since the table
of the modules has no two fields of one name (`Config.accepted_of_parse`).
-/

namespace DotQuery.Config

variable {c : Config} {t : Toml} {fields : Fields Toml} {ms : List (Text × Text)}

/-- Validation accepts the configuration, and no module is in it twice. -/
structure Accepted (c : Config) : Prop where
  valid : c.validate = .ok ()
  distinct : (Fields.names c.logging.modules).Nodup

/-! ## Validation -/

theorem validateModules_eq_ok_iff :
    validateModules ms = .ok () ↔ ∀ m ∈ ms, m.1.trim ≠ [] ∧ isLevel m.2 = true := by
  induction ms with
  | nil => simp [validateModules]
  | cons m ms ih =>
    obtain ⟨name, level⟩ := m
    rw [List.forall_mem_cons, ← ih, validateModules]
    split
    · next h => simp [h]
    · next h =>
      split
      · next hlevel => simp [h, hlevel]
      · next hlevel => simp [hlevel]

theorem validate_eq_ok_iff : c.validate = .ok () ↔ isLevel c.logging.level = true ∧
    ∀ m ∈ c.logging.modules, m.1.trim ≠ [] ∧ isLevel m.2 = true := by
  rw [← validateModules_eq_ok_iff, validate]
  split
  · next h => simp [h]
  · next h => simp [h]

theorem Accepted.isLevel (hc : c.Accepted) : Config.isLevel c.logging.level = true :=
  (validate_eq_ok_iff.mp hc.valid).1

theorem Accepted.isLevel_module (hc : c.Accepted) {m : Text × Text} (hm : m ∈ c.logging.modules) :
    Config.isLevel m.2 = true :=
  ((validate_eq_ok_iff.mp hc.valid).2 m hm).2

/-! ## Levels -/

theorem isLetter_of_isLevel {t : Text} (h : isLevel t = true) : ∀ x ∈ t, isLetter x = true := by
  obtain ⟨name, hname, heq⟩ := List.any_eq_true.mp h
  have hnames : (levelNames.all fun name => (name.map lowerAscii).all isLetter) = true := rfl
  have hletters := List.all_eq_true.mp hnames name hname
  intro x hx
  have hlower : isLetter (lowerAscii x) = true := by
    refine List.all_eq_true.mp hletters _ ?_
    rw [← beq_iff_eq.mp heq]
    exact List.mem_map_of_mem hx
  unfold lowerAscii at hlower
  split at hlower
  · next hupper => rw [isLetter, hupper, Bool.or_true]
  · exact hlower

theorem not_mem_of_isLevel {t : Text} (h : isLevel t = true) {x : Char} (hx : isLetter x = false) :
    x ∉ t :=
  fun hmem => Bool.noConfusion (hx.symm.trans (isLetter_of_isLevel h x hmem))

/-! ## Decoding -/

theorem eq_of_record?_table {names : List Text} {gs : Fields Toml}
    (h : record? names (.table gs) = some fields) : gs = fields := by
  unfold record? at h
  dsimp only at h
  split at h
  · exact Option.some.inj h
  · cases h

theorem distinctNames_of_record? {names : List Text} (ht : t.DistinctNames)
    (h : record? names t = some fields) : ∀ f ∈ fields, f.2.DistinctNames := by
  cases ht with
  | table nodup hfields => exact eq_of_record?_table h ▸ hfields
  | array hitems =>
    cases h
    exact fun f hf => hitems f.2 (List.of_mem_zip hf).2
  | datetime d =>
    cases h
    exact List.forall_mem_singleton.mpr (.string d)
  | _ => cases h

theorem names_of_mapM {decode : Toml → Option Text}
    (h : (fields.mapM fun (name, t) => (decode t).map (name, ·)) = some ms) :
    Fields.names ms = Fields.names fields := by
  induction fields generalizing ms with
  | nil =>
    cases h
    rfl
  | cons f fields ih =>
    rw [List.mapM_cons] at h
    obtain ⟨m, hm, h⟩ := Option.bind_eq_some_iff.mp h
    obtain ⟨rest, hrest, h⟩ := Option.bind_eq_some_iff.mp h
    cases h
    obtain ⟨level, -, rfl⟩ := Option.map_eq_some_iff.mp hm
    exact congrArg (f.1 :: ·) (ih hrest)

theorem nodup_of_levels? (ht : t.DistinctNames) (h : levels? t = some ms) :
    (Fields.names ms).Nodup := by
  unfold levels? at h
  cases ht with
  | table nodup =>
    obtain ⟨fields, hfields, hms⟩ := Option.bind_eq_some_iff.mp h
    rw [names_of_mapM hms, ← eq_of_record?_table hfields]
    exact nodup
  | datetime d =>
    obtain ⟨fields, hfields, hms⟩ := Option.bind_eq_some_iff.mp h
    cases hfields
    rw [names_of_mapM hms]
    exact List.nodup_singleton _
  | _ => cases h

/-- What a field decodes to has a property that its default has. -/
theorem of_fieldOr {α : Type} {P : α → Prop} {missing a : α} {decode : Toml → Option α}
    {name : String} (hfields : ∀ f ∈ fields, f.2.DistinctNames) (hmissing : P missing)
    (hdecode : ∀ t a, t.DistinctNames → decode t = some a → P a)
    (h : fieldOr missing decode name fields = some a) : P a := by
  unfold fieldOr at h
  split at h
  · cases h
    exact hmissing
  · next t hlookup =>
    obtain ⟨before, after, hmem, -⟩ := List.lookup_eq_some_iff.mp hlookup
    exact hdecode t a (hfields (name.toList, t) (by simp [hmem])) h

theorem Logging.nodup_of_ofToml? {l : Logging} (ht : t.DistinctNames)
    (h : Logging.ofToml? t = some l) : (Fields.names l.modules).Nodup := by
  obtain ⟨fields, hfields, h⟩ := Option.bind_eq_some_iff.mp h
  obtain ⟨level, -, h⟩ := Option.bind_eq_some_iff.mp h
  obtain ⟨modules, hmodules, h⟩ := Option.bind_eq_some_iff.mp h
  obtain ⟨file, -, h⟩ := Option.bind_eq_some_iff.mp h
  obtain ⟨format, -, h⟩ := Option.bind_eq_some_iff.mp h
  cases h
  refine of_fieldOr (P := fun ms => (Fields.names ms).Nodup)
    (distinctNames_of_record? ht hfields) ?_ (fun _ _ => nodup_of_levels?) hmodules
  exact List.nodup_nil

theorem nodup_of_ofToml? (ht : t.DistinctNames) (h : ofToml? t = some c) :
    (Fields.names c.logging.modules).Nodup := by
  obtain ⟨fields, hfields, h⟩ := Option.bind_eq_some_iff.mp h
  obtain ⟨logging, hlogging, h⟩ := Option.bind_eq_some_iff.mp h
  obtain ⟨output, -, h⟩ := Option.bind_eq_some_iff.mp h
  cases h
  refine of_fieldOr (P := fun l => (Fields.names l.modules).Nodup)
    (distinctNames_of_record? ht hfields) ?_ (fun _ _ => Logging.nodup_of_ofToml?) hlogging
  exact List.nodup_nil

theorem accepted_of_parse {t : Text} (h : parse t = .ok c) : c.Accepted := by
  unfold parse at h
  split at h
  · cases h
  · next c' hread =>
    split at h
    · next hvalid =>
      cases h
      obtain ⟨fields, hfields, hc⟩ := Option.bind_eq_some_iff.mp hread
      exact ⟨hvalid, nodup_of_ofToml? (Toml.distinctNames_of_ofText? hfields) hc⟩
    · cases h

end DotQuery.Config
