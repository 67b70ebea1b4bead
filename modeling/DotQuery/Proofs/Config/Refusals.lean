import Mathlib.Data.List.Perm.Basic
import DotQuery.Proofs.Config.Acceptance
import DotQuery.Proofs.Text.Quotes

/-!
# Refused configurations

The table of the modules has no order of its own, but validation goes through it and refuses a
configuration for the first wrong module. The order never decides whether a configuration is
accepted. It decides what a configuration with several wrong modules is refused for: each of them is
the first one in some order (`exists_withModules_refusal_iff`). Since a refusal tells apart all
modules that have names (`name_eq_of_message_eq`), it is the same in all orders only if there is at
most one wrong module or none of them has a name (`judged_in_any_order`).
-/

namespace DotQuery.Config

variable {c : Config} {e f : Invalid} {m n : Text × Text} {ms ns : List (Text × Text)} {t : Text}

/-! ## Refusals -/

/-- What is wrong with a module. -/
def offence? (m : Text × Text) : Option Invalid :=
  if m.1.trim = [] then some .emptyModule
  else if isLevel m.2 then none
  else some (.moduleLevel m.1 m.2)

theorem offence?_of_nameless (h : m.1.trim = []) : offence? m = some .emptyModule := if_pos h

theorem offence?_eq_some_iff : offence? m = some e ↔
    m.1.trim = [] ∧ e = .emptyModule ∨
      m.1.trim ≠ [] ∧ isLevel m.2 = false ∧ e = .moduleLevel m.1 m.2 := by
  unfold offence?
  split
  · next h => simp [h, eq_comm (a := e)]
  · next h =>
    split
    · next hlevel => simp [h, hlevel]
    · next hlevel => simp [h, hlevel, eq_comm (a := e)]

/-- The text with which validation refuses a configuration. -/
def refusal? (c : Config) : Option Text :=
  match c.validate with
  | .ok () => none
  | .error e => some e.message

def withModules (c : Config) (ms : List (Text × Text)) : Config :=
  { c with logging := { c.logging with modules := ms } }

theorem validateModules_eq (ms : List (Text × Text)) :
    validateModules ms = (ms.findSome? offence?).elim (.ok ()) .error := by
  induction ms with
  | nil => rfl
  | cons m ms ih =>
    rw [validateModules, List.findSome?_cons, offence?]
    split
    · rfl
    · split
      · exact ih
      · rfl

theorem refusal?_withModules_of_isLevel (h : isLevel c.logging.level = true)
    (ms : List (Text × Text)) :
    (c.withModules ms).refusal? = (ms.findSome? offence?).map Invalid.message := by
  rw [refusal?, validate, withModules, if_pos h, validateModules_eq]
  cases ms.findSome? offence? <;> rfl

theorem refusal?_withModules_of_not_isLevel (h : isLevel c.logging.level = false)
    (ms : List (Text × Text)) :
    (c.withModules ms).refusal? = some (Invalid.level c.logging.level).message := by
  rw [refusal?, validate, withModules, h]
  rfl

/-! ## Orders of modules -/

theorem exists_perm_findSome?_iff {α β : Type} {p : α → Option β} {xs : List α} {b : β} :
    (∃ ys : List α, ys.Perm xs ∧ ys.findSome? p = some b) ↔ ∃ x ∈ xs, p x = some b := by
  constructor
  · rintro ⟨ys, hperm, hys⟩
    obtain ⟨x, hx, hpx⟩ := List.exists_of_findSome?_eq_some hys
    exact ⟨x, hperm.mem_iff.mp hx, hpx⟩
  · rintro ⟨x, hx, hpx⟩
    obtain ⟨before, after, rfl⟩ := List.append_of_mem hx
    -- the item is the first one of all
    exact ⟨x :: (before ++ after), List.perm_middle.symm, by rw [List.findSome?_cons, hpx]⟩

/-- A text with which the configuration is refused if its modules have the right order. -/
inductive Complaint (c : Config) : Text → Prop where
  | level (h : isLevel c.logging.level = false) :
      Complaint c (Invalid.level c.logging.level).message
  | module {m : Text × Text} {e : Invalid} (h : isLevel c.logging.level = true)
      (mem : m ∈ c.logging.modules) (offence : offence? m = some e) : Complaint c e.message

theorem validate_withModules_iff (hperm : ms.Perm c.logging.modules) :
    (c.withModules ms).validate = .ok () ↔ c.validate = .ok () := by
  rw [validate_eq_ok_iff, validate_eq_ok_iff]
  refine and_congr_right fun _ => ?_
  exact ⟨fun h m hm => h m (hperm.mem_iff.mpr hm), fun h m hm => h m (hperm.mem_iff.mp hm)⟩

theorem exists_withModules_refusal_iff :
    (∃ ms, ms.Perm c.logging.modules ∧ (c.withModules ms).refusal? = some t) ↔ c.Complaint t := by
  constructor
  · rintro ⟨ms, hperm, hms⟩
    cases hlevel : isLevel c.logging.level with
    | false =>
      rw [refusal?_withModules_of_not_isLevel hlevel] at hms
      cases hms
      exact .level hlevel
    | true =>
      rw [refusal?_withModules_of_isLevel hlevel, Option.map_eq_some_iff] at hms
      obtain ⟨e, he, rfl⟩ := hms
      obtain ⟨m, hm, hoffence⟩ := exists_perm_findSome?_iff.mp ⟨ms, hperm, he⟩
      exact .module hlevel hm hoffence
  · intro h
    cases h with
    | level hlevel => exact ⟨_, .refl _, refusal?_withModules_of_not_isLevel hlevel _⟩
    | module hlevel hm hoffence =>
      obtain ⟨ms, hperm, hms⟩ := exists_perm_findSome?_iff.mpr ⟨_, hm, hoffence⟩
      refine ⟨ms, hperm, ?_⟩
      rw [refusal?_withModules_of_isLevel hlevel, hms]
      rfl

/-! ## Texts of refusals -/

/-- What stands between the name of a module and its level. -/
def levelExpected : Text :=
  ": level must be one of ".toList ++ Text.joinWith ['|'] levelNames ++ ", got".toList

theorem message_emptyModule : Invalid.emptyModule.message =
    "logging.modules".toList ++ ':' :: " empty module name".toList := rfl

theorem message_moduleLevel (name found : Text) : (Invalid.moduleLevel name found).message =
    "logging.modules".toList ++ '.' :: (name ++ levelExpected ++ ' ' :: found.quoted) := by
  calc (Invalid.moduleLevel name found).message
    _ = "logging.modules".toList ++ ['.'] ++ name ++ ": level must be one of ".toList ++
          Text.joinWith ['|'] levelNames ++ (", got".toList ++ [' ']) ++ found.quoted := rfl
    _ = _ := by
      unfold levelExpected
      simp only [List.append_assoc, List.cons_append, List.nil_append]

theorem message_emptyModule_ne (name found : Text) :
    Invalid.emptyModule.message ≠ (Invalid.moduleLevel name found).message := by
  rw [message_emptyModule, message_moduleLevel]
  intro h
  cases List.append_cancel_left h

theorem name_eq_of_message_eq {name name' found found' : Text}
    (h : (Invalid.moduleLevel name found).message = (Invalid.moduleLevel name' found').message) :
    name = name' := by
  rw [message_moduleLevel, message_moduleLevel] at h
  have hnames := (List.cons_eq_cons.mp (List.append_cancel_left h)).2
  exact List.append_cancel_right (Text.eq_of_append_quoted_eq (by decide) hnames)

theorem name_eq_or_nameless (hm : offence? m = some e) (hn : offence? n = some f)
    (h : e.message = f.message) : m.1 = n.1 ∨ m.1.trim = [] ∧ n.1.trim = [] := by
  rcases offence?_eq_some_iff.mp hm with ⟨hmname, rfl⟩ | ⟨-, -, rfl⟩
  · rcases offence?_eq_some_iff.mp hn with ⟨hnname, rfl⟩ | ⟨-, -, rfl⟩
    · exact .inr ⟨hmname, hnname⟩
    · exact absurd h (message_emptyModule_ne _ _)
  · rcases offence?_eq_some_iff.mp hn with ⟨-, rfl⟩ | ⟨-, -, rfl⟩
    · exact absurd h.symm (message_emptyModule_ne _ _)
    · exact .inl (name_eq_of_message_eq h)

/-! ## All orders -/

/-- At most one module is wrong, or no wrong module has a name. -/
def OneComplaint (ms : List (Text × Text)) : Prop :=
  ∀ m ∈ ms, ∀ n ∈ ms, (offence? m).isSome → (offence? n).isSome →
    m = n ∨ m.1.trim = [] ∧ n.1.trim = []

instance (ms : List (Text × Text)) : Decidable (OneComplaint ms) :=
  inferInstanceAs (Decidable (∀ m ∈ ms, ∀ n ∈ ms, (offence? m).isSome → (offence? n).isSome →
    m = n ∨ m.1.trim = [] ∧ n.1.trim = []))

theorem OneComplaint.findSome?_eq (h : OneComplaint ns) (hms : ms.Perm ns) :
    ms.findSome? offence? = ns.findSome? offence? := by
  cases hm : ms.findSome? offence? with
  | none =>
    have hnone := List.findSome?_eq_none_iff.mp hm
    exact (List.findSome?_eq_none_iff.mpr fun n hn => hnone n (hms.mem_iff.mpr hn)).symm
  | some e =>
    obtain ⟨m, hmem, he⟩ := List.exists_of_findSome?_eq_some hm
    have hmem := hms.mem_iff.mp hmem
    cases hn : ns.findSome? offence? with
    | none =>
      rw [List.findSome?_eq_none_iff.mp hn m hmem] at he
      cases he
    | some f =>
      obtain ⟨n, hnmem, hf⟩ := List.exists_of_findSome?_eq_some hn
      rcases h m hmem n hnmem (by simp [he]) (by simp [hf]) with rfl | ⟨hmname, hnname⟩
      · exact he.symm.trans hf
      · rw [offence?_of_nameless hmname] at he
        rw [offence?_of_nameless hnname] at hf
        exact he.symm.trans hf

theorem oneComplaint_of_refusals_eq (hdistinct : (Fields.names c.logging.modules).Nodup)
    (hlevel : isLevel c.logging.level = true)
    (h : ∀ ms ns, ms.Perm c.logging.modules → ns.Perm c.logging.modules →
      (c.withModules ms).refusal? = (c.withModules ns).refusal?) :
    OneComplaint c.logging.modules := by
  intro m hm n hn hmwrong hnwrong
  obtain ⟨e, he⟩ := Option.isSome_iff_exists.mp hmwrong
  obtain ⟨f, hf⟩ := Option.isSome_iff_exists.mp hnwrong
  obtain ⟨ms, hms, hmrefusal⟩ := exists_withModules_refusal_iff.mpr (.module hlevel hm he)
  obtain ⟨ns, hns, hnrefusal⟩ := exists_withModules_refusal_iff.mpr (.module hlevel hn hf)
  have hmessage := h ms ns hms hns
  rw [hmrefusal, hnrefusal] at hmessage
  exact (name_eq_or_nameless he hf (Option.some.inj hmessage)).imp_left
    (List.inj_on_of_nodup_map hdistinct hm hn)

/-- What the order of its modules does to the validation of a configuration. -/
structure Judged (c : Config) : Prop where
  accepted : ∀ ms, ms.Perm c.logging.modules →
    ((c.withModules ms).validate = .ok () ↔ c.validate = .ok ())
  /-- What is wrong with a module is said in some order. -/
  refused : ∀ t, (∃ ms, ms.Perm c.logging.modules ∧ (c.withModules ms).refusal? = some t) ↔
    c.Complaint t
  /-- The order makes no difference. -/
  stable_iff :
    (∀ ms ns, ms.Perm c.logging.modules → ns.Perm c.logging.modules →
      (c.withModules ms).refusal? = (c.withModules ns).refusal?) ↔
    isLevel c.logging.level = false ∨ OneComplaint c.logging.modules

theorem judged_in_any_order (hdistinct : (Fields.names c.logging.modules).Nodup) : c.Judged where
  accepted _ := validate_withModules_iff
  refused _ := exists_withModules_refusal_iff
  stable_iff := by
    cases hlevel : isLevel c.logging.level with
    | false =>
      refine ⟨fun _ => .inl rfl, fun _ ms ns _ _ => ?_⟩
      rw [refusal?_withModules_of_not_isLevel hlevel, refusal?_withModules_of_not_isLevel hlevel]
    | true =>
      refine ⟨fun h => .inr (oneComplaint_of_refusals_eq hdistinct hlevel h), ?_⟩
      rintro (h | h) ms ns hms hns
      · cases h
      · rw [refusal?_withModules_of_isLevel hlevel, refusal?_withModules_of_isLevel hlevel,
          h.findSome?_eq hms, h.findSome?_eq hns]

/-- Two modules without a name, and one complaint in all orders. -/
theorem judged_two_nameless :
    let c : Config := ⟨⟨"warn".toList, [([], "loud".toList), (['x'], "info".toList),
      ([' '], "off".toList)], none, .plain⟩, .default⟩
    (Fields.names c.logging.modules).Nodup ∧
      ∀ ms, ms.Perm c.logging.modules →
        (c.withModules ms).refusal? = some "logging.modules: empty module name".toList := by
  intro c
  have hdistinct : (Fields.names c.logging.modules).Nodup := by decide
  refine ⟨hdistinct, fun ms hms => ?_⟩
  exact (judged_in_any_order hdistinct).stable_iff.mpr (.inr (by decide)) ms _ hms (.refl _)

/-- A module without a name and one with an unknown level: the first one is complained of. -/
theorem two_refusals_of_one_configuration :
    let c : Config := ⟨⟨"warn".toList, [(['\u3000'], "off".toList), (['a'], "loud".toList)], none,
      .plain⟩, .default⟩
    let ms := [(['a'], "loud".toList), (['\u3000'], "off".toList)]
    (Toml.ofText? "[logging.modules]\n\"\u3000\" = \"off\"\na = \"loud\"\n".toList).bind
        (fun fields => ofToml? (.table fields)) = some c ∧
      ms.Perm c.logging.modules ∧
      c.refusal? = some "logging.modules: empty module name".toList ∧
      (c.withModules ms).refusal? = some ("logging.modules.a: level must be one of ".toList ++
        "trace|debug|info|warn|error|off, got \"loud\"".toList) ∧
      (c.withModules ms).refusal? ≠ c.refusal? := by
  intro c ms
  exact ⟨by decide +kernel, .swap _ _ _, by decide +kernel, by decide +kernel, by decide +kernel⟩

end DotQuery.Config
