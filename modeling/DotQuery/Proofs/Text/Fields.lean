import Mathlib.Data.List.Nodup
import Mathlib.Data.List.Perm.Basic
import DotQuery.Proofs.Json.DistinctNames

/-!
# Fields by name

Where names are distinct a field is found wherever it stands (`lookup_eq_some_iff_mem`), so the
order of the fields does not matter (`lookup_of_perm`). Fields may therefore be read by taking each
one out of what is left, although that moves others about (`takeEach_eq`).
-/

namespace DotQuery.Fields

variable {α : Type} {name : Text} {a : α} {fs gs rest : Fields α}

/-! ## Looking up -/

theorem lookup_eq_some_iff_mem (h : fs.names.Nodup) :
    fs.lookup name = some a ↔ (name, a) ∈ fs := by
  induction fs with
  | nil => simp
  | cons f fs ih =>
    obtain ⟨n, b⟩ := f
    have hfs : n ∉ names fs ∧ (names fs).Nodup := List.nodup_cons.mp h
    by_cases hname : name = n
    · subst hname
      have habsent : (name, a) ∉ fs := fun hmem => hfs.1 (List.mem_map.mpr ⟨_, hmem, rfl⟩)
      simp [habsent, eq_comm]
    · rw [List.lookup_cons, beq_false_of_ne hname, List.mem_cons, ih hfs.2]
      simp [hname]

theorem lookup_of_perm (h : fs.names.Nodup) (hperm : fs.Perm gs) (name : Text) :
    fs.lookup name = gs.lookup name := by
  have hgs : gs.names.Nodup := (hperm.map Prod.fst).nodup_iff.mp h
  refine Option.ext fun a => ?_
  rw [lookup_eq_some_iff_mem h, lookup_eq_some_iff_mem hgs, hperm.mem_iff]

/-! ## Looking several up -/

theorem lookup_filterMap (find : Text → Option α) (ns : List Text) (name : Text) :
    (ns.filterMap fun n => (find n).map fun a => (n, a)).lookup name =
      if name ∈ ns then find name else none := by
  induction ns with
  | nil => rfl
  | cons n ns ih =>
    cases hn : find n with
    | none =>
      rw [List.filterMap_cons_none (by rw [hn]; rfl), ih]
      by_cases h : name = n
      · subst h
        simp [hn]
      · simp [h]
    | some a =>
      rw [List.filterMap_cons_some (by rw [hn]; rfl)]
      by_cases h : name = n
      · subst h
        simp [hn]
      · rw [List.lookup_cons, beq_false_of_ne h, ih]
        simp [h]

theorem names_filterMap (find : Text → Option α) (ns : List Text) :
    names (ns.filterMap fun n => (find n).map fun a => (n, a)) =
      ns.filter fun n => (find n).isSome := by
  induction ns with
  | nil => rfl
  | cons n ns ih =>
    cases hn : find n with
    | none =>
      rw [List.filterMap_cons_none (by rw [hn]; rfl), List.filter_cons_of_neg (by simp [hn]), ih]
    | some a =>
      rw [List.filterMap_cons_some (by rw [hn]; rfl), List.filter_cons_of_pos (by simp [hn]), ← ih]
      rfl

theorem isSome_lookup_iff : (fs.lookup name).isSome ↔ name ∈ fs.names := by
  rw [Option.isSome_iff_ne_none, ne_eq, List.lookup_eq_none_iff, names, List.mem_map]
  constructor
  · intro h
    by_contra habsent
    exact h fun f hf => bne_iff_ne.mpr fun e => habsent ⟨f, hf, e.symm⟩
  · rintro ⟨f, hf, rfl⟩ h
    exact bne_iff_ne.mp (h f hf) rfl

/-! ## Taking out -/

/-- Take a field out; the last one moves to its place. -/
def take? (name : Text) : Fields α → Option (α × Fields α)
  | [] => none
  | (n, a) :: fs =>
    if n = name then some (a, fs.getLast?.toList ++ fs.dropLast)
    else (take? name fs).map fun (b, rest) => (b, (n, a) :: rest)

/-- Take out the named fields that are there, one after the other. -/
def takeEach : List Text → Fields α → Fields α
  | [], _ => []
  | name :: names, fs =>
    match take? name fs with
    | some (a, rest) => (name, a) :: takeEach names rest
    | none => takeEach names fs

theorem perm_of_take? (h : take? name fs = some (a, rest)) : fs.Perm ((name, a) :: rest) := by
  induction fs generalizing rest with
  | nil => cases h
  | cons f fs ih =>
    obtain ⟨n, b⟩ := f
    unfold take? at h
    split at h
    · next hn =>
      cases h
      subst hn
      refine List.Perm.cons _ ?_
      cases hlast : fs.getLast? with
      | none => rw [List.getLast?_eq_none_iff.mp hlast]; exact .refl _
      | some l =>
        have hfs : fs.dropLast ++ [l] = fs := List.dropLast_append_getLast? l hlast
        conv_lhs => rw [← hfs]
        exact List.perm_append_singleton l fs.dropLast
    · obtain ⟨⟨c, rest'⟩, htake, hc⟩ := Option.map_eq_some_iff.mp h
      cases hc
      exact ((ih htake).cons _).trans (.swap _ _ _)

theorem take?_eq_none_iff : take? name fs = none ↔ fs.lookup name = none := by
  induction fs with
  | nil => simp [take?]
  | cons f fs ih =>
    obtain ⟨n, b⟩ := f
    by_cases h : n = name
    · simp [take?, h]
    · rw [take?, if_neg h, Option.map_eq_none_iff, ih, List.lookup_cons,
        beq_false_of_ne (Ne.symm h)]

/-- What is left has the other fields, if not in their places. -/
theorem lookup_of_take? (h : fs.names.Nodup) (htake : take? name fs = some (a, rest)) :
    fs.lookup name = some a ∧ rest.names.Nodup ∧
      ∀ n, n ≠ name → rest.lookup n = fs.lookup n := by
  have hperm := perm_of_take? htake
  have hrest : name ∉ rest.names ∧ rest.names.Nodup :=
    List.nodup_cons.mp ((hperm.map Prod.fst).nodup_iff.mp h)
  refine ⟨?_, hrest.2, fun n hn => ?_⟩
  · rw [lookup_of_perm h hperm, List.lookup_cons_self]
  · rw [lookup_of_perm h hperm, List.lookup_cons, beq_false_of_ne hn]

theorem takeEach_eq {ns : List Text} (hns : ns.Nodup) (h : fs.names.Nodup) :
    takeEach ns fs = ns.filterMap fun name => (fs.lookup name).map fun a => (name, a) := by
  induction ns generalizing fs with
  | nil => rfl
  | cons name ns ih =>
    rw [List.nodup_cons] at hns
    rw [takeEach]
    cases htake : take? name fs with
    | none =>
      have hname : fs.lookup name = none := take?_eq_none_iff.mp htake
      rw [List.filterMap_cons_none (by rw [hname]; rfl)]
      exact ih hns.2 h
    | some r =>
      obtain ⟨a, rest⟩ := r
      obtain ⟨hname, hrest, hother⟩ := lookup_of_take? h htake
      rw [List.filterMap_cons_some (by rw [hname]; rfl)]
      refine congrArg _ ((ih hns.2 hrest).trans (List.filterMap_congr fun n hn => ?_))
      rw [hother n (ne_of_mem_of_not_mem hn hns.1)]

end DotQuery.Fields
