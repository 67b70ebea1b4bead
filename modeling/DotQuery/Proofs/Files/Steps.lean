import DotQuery.Files.Basic

/-!
# Following steps

What one step of a path does (`Moves`) and, from it, what a run of steps does: steps are followed
one part after the other (`follow_append`), idle steps lead nowhere, and above a place that is
reached there are directories only.
-/

namespace DotQuery.Files

variable {files : Files} {place next last : List Text} {step : Text} {ss ts : List Text}

/-! ## One step -/

/-- The step leads from a directory to a place that is there. -/
inductive Moves (files : Files) (place : List Text) (step : Text) : List Text → Prop where
  | stay (directory : files.node? place = some .directory) (idle : FilePath.isIdle step = true) :
      Moves files place step place
  | up (directory : files.node? place = some .directory) (idle : FilePath.isIdle step = false)
      (up : step = "..".toList) : Moves files place step place.dropLast
  | down (directory : files.node? place = some .directory) (idle : FilePath.isIdle step = false)
      (name : step ≠ "..".toList) {node : FileNode}
      (found : files.node? (place ++ [step]) = some node) : Moves files place step (place ++ [step])

theorem follow_cons_of_moves (h : Moves files place step next) (ts : List Text) :
    files.follow place (step :: ts) = files.follow next ts := by
  cases h with
  | stay directory idle => simp only [follow, directory, idle, if_true]
  | up directory idle up =>
    subst up
    simp only [follow, directory, idle, if_true, if_false, Bool.false_eq_true]
  | down directory idle name found =>
    simp only [follow, directory, idle, name, found, if_false, Bool.false_eq_true]

theorem moves_of_follow_cons (h : files.follow place (step :: ts) = .ok last) :
    ∃ next, Moves files place step next ∧ files.follow next ts = .ok last := by
  unfold follow at h
  cases directory : files.node? place with
  | none => simp [directory] at h
  | some node =>
    cases node with
    | file c => simp [directory] at h
    | directory =>
      simp only [directory] at h
      cases idle : FilePath.isIdle step with
      | true => exact ⟨place, .stay directory idle, by simpa [idle] using h⟩
      | false =>
        simp only [idle, Bool.false_eq_true, if_false] at h
        by_cases hup : step = "..".toList
        · exact ⟨place.dropLast, .up directory idle hup, by simpa [hup] using h⟩
        · rw [if_neg hup] at h
          cases found : files.node? (place ++ [step]) with
          | none => simp [found] at h
          | some node =>
            exact ⟨place ++ [step], .down directory idle hup found, by simpa [found] using h⟩

/-! ## Runs of steps -/

theorem follow_append (h : files.follow place ss = .ok next) (ts : List Text) :
    files.follow place (ss ++ ts) = files.follow next ts := by
  induction ss generalizing place with
  | nil =>
    cases h
    rfl
  | cons step ss ih =>
    obtain ⟨mid, hmoves, hrest⟩ := moves_of_follow_cons h
    rw [List.cons_append, follow_cons_of_moves hmoves, ih hrest]

theorem exists_follow_of_append (h : files.follow place (ss ++ ts) = .ok last) :
    ∃ next, files.follow place ss = .ok next ∧ files.follow next ts = .ok last := by
  induction ss generalizing place with
  | nil => exact ⟨place, rfl, h⟩
  | cons step ss ih =>
    obtain ⟨mid, hmoves, hrest⟩ := moves_of_follow_cons h
    obtain ⟨next, hnext, hlast⟩ := ih hrest
    exact ⟨next, (follow_cons_of_moves hmoves ss).trans hnext, hlast⟩

theorem follow_of_idle (hidle : ∀ step ∈ ts, FilePath.isIdle step = true)
    (h : files.follow place ts = .ok last) : last = place := by
  induction ts generalizing place with
  | nil =>
    cases h
    rfl
  | cons step ts ih =>
    obtain ⟨hstep, hts⟩ := List.forall_mem_cons.mp hidle
    obtain ⟨next, hmoves, hrest⟩ := moves_of_follow_cons h
    have hnext : next = place := by
      cases hmoves with
      | stay => rfl
      | up _ idle => simp [hstep] at idle
      | down _ idle => simp [hstep] at idle
    rw [ih hts hrest, hnext]

/-- All places above one are directories. -/
def Below (files : Files) (place : List Text) : Prop :=
  ∀ above, above <+: place → above ≠ place → files.node? above = some .directory

theorem node?_of_prefix_current (h : place <+: files.current) :
    files.node? place = some .directory := by
  rw [node?, if_pos (List.isPrefixOf_iff_prefix.mpr h)]

theorem below_start (files : Files) (path : Text) : Below files (files.start path) := by
  intro above habove _
  unfold start at habove
  split at habove
  · exact node?_of_prefix_current (habove.trans List.nil_prefix)
  · exact node?_of_prefix_current habove

theorem not_prefix_dropLast (h : place ≠ []) : ¬ place <+: place.dropLast := fun hprefix => by
  have hlength := hprefix.length_le
  have hpos : 0 < place.length := List.length_pos_iff.mpr h
  rw [List.length_dropLast] at hlength
  omega

theorem Below.dropLast (h : Below files place) : Below files place.dropLast := by
  intro above habove hne
  have hplace : above <+: place := habove.trans (List.dropLast_prefix place)
  refine h above hplace fun e => ?_
  subst e
  by_cases hroot : above = []
  · exact hne (by simp [hroot])
  · exact not_prefix_dropLast hroot habove

theorem Below.moves (h : Below files place) (hmoves : Moves files place step next) :
    Below files next := by
  cases hmoves with
  | stay => exact h
  | up => exact h.dropLast
  | down directory idle name found =>
    intro above habove hne
    rcases List.prefix_concat_iff.mp habove with e | habove
    · exact absurd e hne
    · by_cases e : above = place
      · exact e ▸ directory
      · exact h above habove e

theorem Below.follow (h : Below files place) (hfollow : files.follow place ss = .ok last) :
    Below files last := by
  induction ss generalizing place with
  | nil =>
    cases hfollow
    exact h
  | cons step ss ih =>
    obtain ⟨next, hmoves, hrest⟩ := moves_of_follow_cons hfollow
    exact ih (h.moves hmoves) hrest

/-- A run that ends at a file ends with a step down to it. -/
theorem exists_directory_of_follow {c : Content} (hplace : Below files place)
    (h : files.follow place (ss ++ [step]) = .ok last)
    (hfile : files.node? last = some (.file c)) :
    ∃ directory, files.follow place ss = .ok directory ∧ last = directory ++ [step] ∧
      FilePath.isIdle step = false := by
  obtain ⟨directory, hdirectory, hlast⟩ := exists_follow_of_append h
  obtain ⟨next, hmoves, hend⟩ := moves_of_follow_cons hlast
  cases hend
  refine ⟨directory, hdirectory, ?_⟩
  cases hmoves with
  | stay hnode => cases hnode.symm.trans hfile
  | up hnode =>
    -- What is above a place that was reached is no file, and the root is above itself.
    have hbelow : Below files directory := hplace.follow hdirectory
    have hup : files.node? directory.dropLast = some .directory := by
      by_cases e : directory.dropLast = directory
      · rw [e, hnode]
      · exact hbelow _ (List.dropLast_prefix _) e
    cases hup.symm.trans hfile
  | down _ idle => exact ⟨rfl, idle⟩

end DotQuery.Files
