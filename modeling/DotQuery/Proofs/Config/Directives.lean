import Mathlib.Data.List.Infix
import Mathlib.Data.List.Perm.Basic
import DotQuery.Proofs.Config.Acceptance
import DotQuery.Proofs.Text.Cut
import DotQuery.Proofs.Text.Pieces

/-!
# Log filters

The log filter of a configuration is its level and, behind a comma each, the names and levels of its
modules, in the order of the names. No level has a comma or an equals sign in it, but the name of a
module may: only without these the filter can be taken apart again (`Config.ReadsAs`). A name with a
comma in it makes a filter for other modules.
-/

namespace DotQuery.Config

variable {c : Config} {ms ns : List (Text × Text)} {m : Text × Text} {t level : Text}

/-! ## Modules in order -/

theorem perm_insertModule (m : Text × Text) (ms : List (Text × Text)) :
    (insertModule m ms).Perm (m :: ms) := by
  induction ms with
  | nil => exact .refl [m]
  | cons n ns ih =>
    unfold insertModule
    split
    · exact (ih.cons n).trans (.swap m n ns)
    · exact .refl _

theorem perm_sortModules (ms : List (Text × Text)) : (sortModules ms).Perm ms := by
  induction ms with
  | nil => exact .nil
  | cons m ms ih => exact (perm_insertModule m _).trans (ih.cons m)

theorem mem_sortModules_iff : m ∈ sortModules ms ↔ m ∈ ms := (perm_sortModules ms).mem_iff

/-- No name comes before the name of an earlier module. -/
def InOrder (ms : List (Text × Text)) : Prop := ms.Pairwise fun m n => ¬ n.1 < m.1

theorem inOrder_insertModule (m : Text × Text) (h : InOrder ms) : InOrder (insertModule m ms) := by
  induction ms with
  | nil => exact List.pairwise_singleton _ m
  | cons n ns ih =>
    obtain ⟨hn, hns⟩ := List.pairwise_cons.mp h
    unfold insertModule
    split
    · next hlt =>
      refine List.pairwise_cons.mpr ⟨fun x hx => ?_, ih hns⟩
      rcases List.mem_cons.mp ((perm_insertModule m ns).mem_iff.mp hx) with rfl | hx
      · exact List.lt_asymm hlt
      · exact hn x hx
    · next hle =>
      refine List.pairwise_cons.mpr ⟨fun x hx => ?_, h⟩
      rcases List.mem_cons.mp hx with rfl | hx
      · exact hle
      · exact List.not_lt.mpr (List.le_trans (List.not_lt.mp hle) (List.not_lt.mp (hn x hx)))

theorem inOrder_sortModules (ms : List (Text × Text)) : InOrder (sortModules ms) := by
  induction ms with
  | nil => exact .nil
  | cons m ms ih => exact inOrder_insertModule m ih

theorem sortModules_eq_of_perm (h : (Fields.names ms).Nodup) (hperm : ms.Perm ns) :
    sortModules ms = sortModules ns := by
  have hsorted : (sortModules ms).Perm (sortModules ns) :=
    ((perm_sortModules ms).trans hperm).trans (perm_sortModules ns).symm
  refine hsorted.eq_of_pairwise (fun a b ha hb hab hba => ?_) (inOrder_sortModules ms)
    (inOrder_sortModules ns)
  have ha := mem_sortModules_iff.mp ha
  have hb := hperm.mem_iff.mpr (mem_sortModules_iff.mp hb)
  have hname : a.1 = b.1 := List.le_antisymm (List.not_lt.mp hab) (List.not_lt.mp hba)
  exact List.inj_on_of_nodup_map h ha hb hname

theorem sortModules_eq_iff (h : (Fields.names ms).Nodup) :
    sortModules ms = sortModules ns ↔ ms.Perm ns := by
  refine ⟨fun hsorted => ?_, sortModules_eq_of_perm h⟩
  have hms := (perm_sortModules ms).symm
  rw [hsorted] at hms
  exact hms.trans (perm_sortModules ns)

/-! ## Parts of filters -/

/-- The part of a filter that is about a module. -/
def modulePart (m : Text × Text) : Text := m.1 ++ '=' :: m.2

theorem directives_eq (l : Logging) : l.directives =
    l.level ++ ((sortModules l.modules).map modulePart).flatMap (',' :: ·) := by
  rw [List.flatMap_map]
  rfl

theorem Accepted.splitOn_directives (hc : c.Accepted) : c.logging.directives.splitOn ',' =
    c.logging.level ::
      (sortModules c.logging.modules).flatMap fun m => (modulePart m).splitOn ',' := by
  rw [directives_eq, Text.splitOn_append_flatMap,
    Text.splitOn_of_not_mem (not_mem_of_isLevel hc.isLevel rfl), List.flatMap_map]
  rfl

/-- No name has a comma in it. -/
theorem Accepted.splitOn_directives_of_names (hc : c.Accepted)
    (hnames : ∀ name ∈ Fields.names c.logging.modules, ',' ∉ name) :
    c.logging.directives.splitOn ',' =
      c.logging.level :: (sortModules c.logging.modules).map modulePart := by
  have hpart : ∀ m ∈ sortModules c.logging.modules,
      (modulePart m).splitOn ',' = [modulePart m] := fun m hm => by
    have hm := mem_sortModules_iff.mp hm
    have hname := hnames m.1 (List.mem_map_of_mem hm)
    have hlevel : ',' ∉ m.2 := not_mem_of_isLevel (hc.isLevel_module hm) rfl
    exact Text.splitOn_of_not_mem (by simp [modulePart, hname, hlevel])
  rw [hc.splitOn_directives, List.flatMap_congr hpart, ← List.map_eq_flatMap]

/-- The level and the levels of modules that a filter reads as: it is cut at its commas, and each
part but the first at its first equals sign. -/
def ReadsAs (t level : Text) (ms : List (Text × Text)) : Prop :=
  ∃ parts, t.splitOn ',' = level :: parts ∧ parts.map (Text.cutAtFirst ['=']) = ms.map some

theorem ReadsAs.not_mem_name (h : ReadsAs t level ms) :
    ∀ name ∈ Fields.names ms, ',' ∉ name ∧ '=' ∉ name := by
  obtain ⟨parts, hsplit, hread⟩ := h
  intro name hname
  obtain ⟨m, hm, rfl⟩ := List.mem_map.mp hname
  have hmem := List.mem_map_of_mem (f := some) hm
  rw [← hread] at hmem
  obtain ⟨part, hpart, hcut⟩ := List.mem_map.mp hmem
  obtain ⟨rfl, hbefore⟩ := Text.cutAtFirst_eq_some (List.cons_ne_nil _ _) hcut
  have hcomma : ',' ∉ m.1 ++ ['='] ++ m.2 :=
    Text.not_mem_of_mem_splitOn (hsplit ▸ List.mem_cons_of_mem level hpart)
  refine ⟨fun h => hcomma ?_, fun h => hbefore ((List.singleton_infix_iff _ _).mpr h)⟩
  exact List.mem_append_left _ (List.mem_append_left _ h)

theorem Accepted.readsAs_sortModules (hc : c.Accepted)
    (hnames : ∀ name ∈ Fields.names c.logging.modules, ',' ∉ name ∧ '=' ∉ name) :
    ReadsAs c.logging.directives c.logging.level (sortModules c.logging.modules) := by
  refine ⟨_, hc.splitOn_directives_of_names fun name h => (hnames name h).1, ?_⟩
  rw [List.map_map]
  refine List.map_congr_left fun m hm => ?_
  have hm := mem_sortModules_iff.mp hm
  exact Text.cutAtFirst_append_singleton (hnames m.1 (List.mem_map_of_mem hm)).2 m.2

theorem Accepted.readsAs_iff (hc : c.Accepted) :
    (∃ ms, ReadsAs c.logging.directives c.logging.level ms ∧ ms.Perm c.logging.modules) ↔
      ∀ name ∈ Fields.names c.logging.modules, ',' ∉ name ∧ '=' ∉ name := by
  constructor
  · rintro ⟨ms, hread, hperm⟩ name hname
    exact hread.not_mem_name name ((hperm.map Prod.fst).mem_iff.mpr hname)
  · exact fun h => ⟨_, hc.readsAs_sortModules h, perm_sortModules _⟩

/-! ## Configurations and filters -/

/-- What the log filter of a configuration tells of it. -/
structure Directed (c : Config) : Prop where
  /-- The order of the modules makes no difference. -/
  order : ∀ ms, ms.Perm c.logging.modules →
    { c.logging with modules := ms }.directives = c.logging.directives
  level : ∀ d : Config, d.Accepted → d.logging.directives = c.logging.directives →
    d.logging.level = c.logging.level
  reads_iff : (∃ ms, ReadsAs c.logging.directives c.logging.level ms ∧ ms.Perm c.logging.modules) ↔
    ∀ name ∈ Fields.names c.logging.modules, ',' ∉ name ∧ '=' ∉ name
  /-- Where no name has a comma in it, the filter determines the modules as well. -/
  modules : (∀ name ∈ Fields.names c.logging.modules, ',' ∉ name) →
    ∀ d : Config, d.Accepted → (∀ name ∈ Fields.names d.logging.modules, ',' ∉ name) →
      (d.logging.directives = c.logging.directives ↔
        d.logging.level = c.logging.level ∧ d.logging.modules.Perm c.logging.modules)

theorem Accepted.map_cutAtLast (hc : c.Accepted) :
    ((sortModules c.logging.modules).map modulePart).map (Text.cutAtLast '=') =
      (sortModules c.logging.modules).map some := by
  rw [List.map_map]
  refine List.map_congr_left fun m hm => ?_
  have hm := mem_sortModules_iff.mp hm
  exact Text.cutAtLast_append_cons m.1 (not_mem_of_isLevel (hc.isLevel_module hm) rfl)

theorem directives_of_perm (hdistinct : (Fields.names ms).Nodup) (hperm : ms.Perm ns)
    (l : Logging) :
    { l with modules := ms }.directives = { l with modules := ns }.directives := by
  rw [directives_eq, directives_eq, sortModules_eq_of_perm hdistinct hperm]

theorem directives_exact (hc : c.Accepted) : c.Directed where
  order ms hperm := by
    have hdistinct : (Fields.names ms).Nodup := (hperm.map Prod.fst).nodup_iff.mpr hc.distinct
    exact directives_of_perm hdistinct hperm c.logging
  level d hd heq := by
    have hparts := hd.splitOn_directives
    rw [heq, hc.splitOn_directives] at hparts
    exact (List.cons_eq_cons.mp hparts).1.symm
  reads_iff := hc.readsAs_iff
  modules hnames d hd hdnames := by
    constructor
    · intro heq
      have hparts := hd.splitOn_directives_of_names hdnames
      rw [heq, hc.splitOn_directives_of_names hnames] at hparts
      obtain ⟨hlevel, hmodules⟩ := List.cons_eq_cons.mp hparts
      have hsorted := congrArg (List.map (Text.cutAtLast '=')) hmodules
      rw [hc.map_cutAtLast, hd.map_cutAtLast] at hsorted
      have hsorted := List.map_injective_iff.mpr (fun _ _ => Option.some.inj) hsorted
      exact ⟨hlevel.symm, (sortModules_eq_iff hd.distinct).mp hsorted.symm⟩
    · rintro ⟨hlevel, hmodules⟩
      rw [directives_eq, directives_eq, hlevel, sortModules_eq_of_perm hd.distinct hmodules]

/-- Two modules, of which the second one comes first in the filter. -/
theorem directives_exact_two_modules :
    let c : Config :=
      ⟨⟨"warn".toList, [(['y'], "debug".toList), (['x'], "info".toList)], none, .plain⟩, .default⟩
    c.Accepted ∧ c.logging.directives = "warn,x=info,y=debug".toList ∧
      ∃ ms, ReadsAs c.logging.directives "warn".toList ms ∧ ms.Perm c.logging.modules := by
  intro c
  have hc : c.Accepted := ⟨rfl, by decide⟩
  exact ⟨hc, by decide, (directives_exact hc).reads_iff.mpr (by decide)⟩

/-- A name with a comma in it: the filter is that of two other modules. -/
theorem directives_of_name_with_comma :
    let c : Config :=
      ⟨⟨"warn".toList, [("x=info,y".toList, "debug".toList)], none, .plain⟩, .default⟩
    let d : Config :=
      ⟨⟨"warn".toList, [(['x'], "info".toList), (['y'], "debug".toList)], none, .plain⟩, .default⟩
    (parse "[logging]\nmodules = \x7b \"x=info,y\" = \"debug\" \x7d\n".toList).toOption = some c ∧
      (parse "[logging.modules]\nx = \"info\"\ny = \"debug\"\n".toList).toOption = some d ∧
      ¬ d.logging.modules.Perm c.logging.modules ∧
      d.logging.directives = c.logging.directives ∧
      ReadsAs c.logging.directives c.logging.level d.logging.modules := by
  intro c d
  refine ⟨by decide +kernel, by decide +kernel, fun h => ?_, by decide, _, rfl, by decide⟩
  cases h.length_eq

end DotQuery.Config
