import Mathlib.Data.List.DropRight
import DotQuery.Proofs.Files.Steps
import DotQuery.Proofs.Text.Pieces

/-!
# The directory of a file

The directory part of a path that leads to a file leads to the directory of that file, so a path
that is joined to it is followed from there (`read_join_parent`). The current directory by name in
front of a relative path changes nothing (`locate_here`).
-/

namespace DotQuery

namespace FilePath

variable {path path' file anchor rest : Text} {name : Text} {ss steps before : List Text}

/-! ## Absolute paths -/

/-- The first step of an absolute path is the empty one in front of the root. -/
theorem isAbsolute_iff (hne : path ≠ []) :
    isAbsolute path = true ↔ (Text.splitOn '/' path).head? = some [] := by
  cases path with
  | nil => exact absurd rfl hne
  | cons c t =>
    by_cases h : c = '/'
    · subst h
      simp [Text.splitOn_cons_self, isAbsolute]
    · obtain ⟨p, ps, -, hct⟩ := Text.splitOn_cons_of_ne h t
      simp [hct, isAbsolute, h]

theorem isAbsolute_congr (hne : path ≠ []) (hne' : path' ≠ [])
    (h : (Text.splitOn '/' path).head? = (Text.splitOn '/' path').head?) :
    isAbsolute path = isAbsolute path' := by
  rw [Bool.eq_iff_iff, isAbsolute_iff hne, isAbsolute_iff hne', h]

/-! ## Idle steps at the end -/

theorem dropIdleEnd_concat (ss : List Text) (h : isIdle name = false) :
    dropIdleEnd (ss ++ [name]) = ss ++ [name] :=
  List.rdropWhile_concat_neg _ _ _ (by simp [h])

theorem exists_idle_end (ss : List Text) :
    ∃ idle, ss = dropIdleEnd ss ++ idle ∧ ∀ step ∈ idle, isIdle step = true :=
  ⟨ss.rtakeWhile isIdle, List.rdropWhile_append_rtakeWhile.symm, fun _ => List.mem_rtakeWhile_imp⟩

theorem getLast_dropIdleEnd_ne_nil (h : dropIdleEnd ss ≠ []) :
    (dropIdleEnd ss).getLast h ≠ [] := fun e => by
  have hlast := List.rdropWhile_last_not isIdle ss h
  exact hlast (congrArg isIdle e)

/-! ## Directory parts -/

theorem parent?_of_cutAnchor (hcut : cutAnchor path = (anchor, rest))
    (hsteps : Text.splitOn '/' rest = before ++ [name]) (hname : isIdle name = false) :
    parent? path = some (anchor ++ Text.joinWith ['/'] (dropIdleEnd before)) := by
  simp only [parent?, hcut, hsteps, dropIdleEnd_concat before hname]
  split
  · next h => exact absurd h (List.append_ne_nil_of_right_ne_nil before (List.cons_ne_nil name []))
  · rw [List.dropLast_concat]

theorem cutAnchor_of_plain (habs : isAbsolute path = false) (hne : path ≠ ['.'])
    (hhere : ∀ t, path ≠ '.' :: '/' :: t) : cutAnchor path = ([], path) := by
  unfold cutAnchor
  split
  · exact absurd habs (by simp [isAbsolute])
  · exact absurd rfl hne
  · exact absurd rfl (hhere _)
  · rfl

/-- An idle step in front stays only if there is more. -/
theorem dropIdleEnd_nil_cons (ss : List Text) :
    dropIdleEnd ([] :: ss) = if dropIdleEnd ss = [] then [] else [] :: dropIdleEnd ss := by
  have hidle : isIdle [] = true := rfl
  by_cases h : List.dropWhile isIdle ss.reverse = []
  · simp [dropIdleEnd, List.dropWhile_append, h, hidle]
  · simp [dropIdleEnd, List.dropWhile_append, h]

theorem splitOn_here (rest : Text) :
    Text.splitOn '/' ('.' :: '/' :: rest) = ['.'] :: Text.splitOn '/' rest :=
  Text.splitOn_append_cons (t := ['.']) (by decide) rest

/-- A path that starts with the current directory by name keeps it in its directory part. -/
theorem parent?_here (hsteps : Text.splitOn '/' rest = before ++ [name])
    (hname : isIdle name = false) :
    parent? ('.' :: '/' :: rest) =
      some (Text.joinWith ['/'] (['.'] :: dropIdleEnd before)) := by
  have hrest : Text.splitOn '/' ('/' :: rest) = ([] :: before) ++ [name] := by
    rw [Text.splitOn_cons_self, hsteps, List.cons_append]
  have hcut : cutAnchor ('.' :: '/' :: rest) = (['.'], '/' :: rest) := rfl
  rw [parent?_of_cutAnchor hcut hrest hname, dropIdleEnd_nil_cons]
  split
  · next h => rw [h]; rfl
  · next h => rw [Text.joinWith_cons h, Text.joinWith_cons h]; rfl

theorem getLast_here_ne_nil (ss : List Text) (h : ['.'] :: dropIdleEnd ss ≠ []) :
    (['.'] :: dropIdleEnd ss).getLast h ≠ [] := by
  by_cases hidle : dropIdleEnd ss = []
  · simp [hidle]
  · simpa only [List.getLast_cons hidle] using getLast_dropIdleEnd_ne_nil hidle

/-! ## Joined paths -/

/-- Joined texts end with the separator only if the last of them is empty. -/
theorem getLast?_joinWith_ne (hne : steps ≠ []) (hsep : ∀ step ∈ steps, '/' ∉ step)
    (hlast : steps.getLast hne ≠ []) :
    Text.joinWith ['/'] steps ≠ [] ∧ (Text.joinWith ['/'] steps).getLast? ≠ some '/' := by
  have hcut : Text.splitOn '/' (Text.joinWith ['/'] steps) = steps := Text.splitOn_joinWith hne hsep
  refine ⟨fun h => ?_, fun h => ?_⟩
  · rw [h] at hcut
    subst hcut
    exact hlast rfl
  · obtain ⟨t, ht⟩ := List.getLast?_eq_some_iff.mp h
    rw [ht, Text.splitOn_append_sep] at hcut
    subst hcut
    exact hlast (by simp [Text.splitOn])

theorem splitOn_join_joinWith (hsep : ∀ step ∈ steps, '/' ∉ step)
    (hlast : ∀ h : steps ≠ [], steps.getLast h ≠ []) (hfile : isAbsolute file = false) :
    Text.splitOn '/' (join (Text.joinWith ['/'] steps) file) = steps ++ Text.splitOn '/' file := by
  by_cases hne : steps = []
  · subst hne
    simp [join, Text.joinWith]
  · obtain ⟨hempty, hslash⟩ := getLast?_joinWith_ne hne hsep (hlast hne)
    simp only [join, hfile, hempty, hslash, decide_false, Bool.or_self, Bool.false_eq_true,
      if_false]
    rw [Text.splitOn_append_sep, Text.splitOn_joinWith hne hsep]

/-- The root in front of a directory stays in front of what is joined to it. -/
theorem join_root (directory : Text) (hfile : isAbsolute file = false) :
    join ('/' :: directory) file = '/' :: join directory file := by
  cases directory with
  | nil => simp [join, hfile]
  | cons c t =>
    simp only [join, hfile, Bool.false_or, List.cons_ne_nil, decide_false, Bool.false_eq_true,
      if_false, List.getLast?_cons_cons]
    split <;> rfl

/-! ## Steps of directory parts -/

/-- A path that is joined to the directory part goes along some steps first. These are the steps
before the name, up to idle ones at the end. -/
structure IsDirectoryPart (before steps : List Text) (path : Text) : Prop where
  splitOn_join : ∀ file, isAbsolute file = false →
    Text.splitOn '/' (join ((parent? path).getD ['.']) file) = steps ++ Text.splitOn '/' file
  idle_end : ∃ idle, before = steps ++ idle ∧ ∀ step ∈ idle, isIdle step = true
  root : isAbsolute path = true → steps ≠ []

theorem isDirectoryPart_of_parent (hsep : ∀ step ∈ before, '/' ∉ step)
    (habs : isAbsolute path = false) (hlast : ∀ h : steps ≠ [], steps.getLast h ≠ [])
    (hidle : ∃ idle, before = steps ++ idle ∧ ∀ step ∈ idle, isIdle step = true)
    (hparent : parent? path = some (Text.joinWith ['/'] steps)) :
    IsDirectoryPart before steps path := by
  refine ⟨fun file hfile => ?_, hidle, by simp [habs]⟩
  obtain ⟨idle, rfl, -⟩ := hidle
  rw [hparent, Option.getD_some,
    splitOn_join_joinWith (fun step h => hsep step (List.mem_append_left idle h)) hlast hfile]

theorem isDirectoryPart_root (hsep : ∀ step ∈ before, '/' ∉ step)
    (hsteps : Text.splitOn '/' rest = before ++ [name]) (hname : isIdle name = false) :
    IsDirectoryPart ([] :: before) ([] :: dropIdleEnd before) ('/' :: rest) := by
  obtain ⟨idle, hidle, hall⟩ := exists_idle_end before
  refine ⟨fun file hfile => ?_, ⟨idle, congrArg ([] :: ·) hidle, hall⟩, fun _ => nofun⟩
  have hdirectory : ∀ step ∈ dropIdleEnd before, '/' ∉ step := fun step h =>
    hsep step (hidle ▸ List.mem_append_left idle h)
  have hparent : parent? ('/' :: rest) = some ('/' :: Text.joinWith ['/'] (dropIdleEnd before)) :=
    parent?_of_cutAnchor rfl hsteps hname
  rw [hparent, Option.getD_some, join_root _ hfile, Text.splitOn_cons_self,
    splitOn_join_joinWith hdirectory (fun _ => getLast_dropIdleEnd_ne_nil _) hfile,
    List.cons_append]

theorem isDirectoryPart_here (hsep : ∀ step ∈ before, '/' ∉ step)
    (hsteps : Text.splitOn '/' rest = before ++ [name]) (hname : isIdle name = false) :
    IsDirectoryPart (['.'] :: before) (['.'] :: dropIdleEnd before) ('.' :: '/' :: rest) := by
  obtain ⟨idle, hidle, hall⟩ := exists_idle_end before
  exact isDirectoryPart_of_parent (List.forall_mem_cons.mpr ⟨by decide, hsep⟩) rfl
    (getLast_here_ne_nil before) ⟨idle, congrArg (['.'] :: ·) hidle, hall⟩
    (parent?_here hsteps hname)

theorem isDirectoryPart_plain (hsep : ∀ step ∈ before, '/' ∉ step)
    (habs : isAbsolute path = false) (hhere : ∀ rest, path ≠ '.' :: '/' :: rest)
    (hsteps : Text.splitOn '/' path = before ++ [name]) (hname : isIdle name = false) :
    IsDirectoryPart before (dropIdleEnd before) path := by
  have hdot : path ≠ ['.'] := by
    rintro rfl
    have hlast : some ['.'] = some name := by
      simpa [Text.splitOn_of_not_mem] using congrArg List.getLast? hsteps
    cases hlast
    cases hname
  have hcut : cutAnchor path = ([], path) := cutAnchor_of_plain habs hdot hhere
  exact isDirectoryPart_of_parent hsep habs (fun _ => getLast_dropIdleEnd_ne_nil _)
    (exists_idle_end before) (parent?_of_cutAnchor hcut hsteps hname)

theorem exists_of_cons_splitOn {step : Text}
    (h : step :: Text.splitOn '/' rest = before ++ [name]) :
    ∃ before', before = step :: before' ∧ Text.splitOn '/' rest = before' ++ [name] := by
  obtain ⟨rfl, hname⟩ | ⟨before', rfl, hrest⟩ := List.cons_eq_append_iff.mp h
  · exact absurd (List.cons.inj hname).2.symm (Text.splitOn_ne_nil '/' rest)
  · exact ⟨before', rfl, hrest⟩

theorem exists_isDirectoryPart (hsteps : Text.splitOn '/' path = before ++ [name])
    (hname : isIdle name = false) : ∃ steps, IsDirectoryPart before steps path := by
  have hsep : ∀ step ∈ before, '/' ∉ step := fun step hstep =>
    Text.not_mem_of_mem_splitOn (hsteps ▸ List.mem_append_left [name] hstep)
  cases habs : isAbsolute path with
  | true =>
    obtain ⟨rest, rfl⟩ := List.head?_eq_some_iff.mp (beq_iff_eq.mp habs)
    rw [Text.splitOn_cons_self] at hsteps
    obtain ⟨before', rfl, hrest⟩ := exists_of_cons_splitOn hsteps
    exact ⟨_, isDirectoryPart_root (List.forall_mem_cons.mp hsep).2 hrest hname⟩
  | false =>
    by_cases hhere : ∃ rest, path = '.' :: '/' :: rest
    · obtain ⟨rest, rfl⟩ := hhere
      rw [splitOn_here] at hsteps
      obtain ⟨before', rfl, hrest⟩ := exists_of_cons_splitOn hsteps
      exact ⟨_, isDirectoryPart_here (List.forall_mem_cons.mp hsep).2 hrest hname⟩
    · exact ⟨_, isDirectoryPart_plain hsep habs (not_exists.mp hhere) hsteps hname⟩

namespace IsDirectoryPart

theorem join_ne_nil (h : IsDirectoryPart before steps path) (hfile : isAbsolute file = false)
    (hne : file ≠ []) : join ((parent? path).getD ['.']) file ≠ [] := fun hjoin => by
  have hcut := h.splitOn_join file hfile
  rw [hjoin] at hcut
  obtain ⟨-, hempty⟩ | ⟨-, hnil⟩ := List.append_eq_singleton_iff.mp hcut.symm
  · exact hne (by rw [← Text.joinWith_splitOn '/' file, hempty]; rfl)
  · exact Text.splitOn_ne_nil '/' file hnil

/-- The joined path starts where the path starts. -/
theorem isAbsolute_join (h : IsDirectoryPart before steps path)
    (hsteps : Text.splitOn '/' path = before ++ [name]) (hpath : path ≠ [])
    (hfile : isAbsolute file = false) (hne : file ≠ []) :
    isAbsolute (join ((parent? path).getD ['.']) file) = isAbsolute path := by
  have hcut := h.splitOn_join file hfile
  obtain ⟨idle, rfl, -⟩ := h.idle_end
  cases steps with
  | nil =>
    have habs : isAbsolute path = false := Bool.eq_false_iff.mpr fun habs => h.root habs rfl
    rw [isAbsolute_congr (h.join_ne_nil hfile hne) hne (congrArg List.head? hcut), hfile, habs]
  | cons step steps =>
    refine isAbsolute_congr (h.join_ne_nil hfile hne) hpath ?_
    rw [hcut, hsteps]
    rfl

end IsDirectoryPart

end FilePath

/-! ## Reading from a place -/

namespace Files

variable {files : Files} {place directory : List Text} {path file name t : Text} {c : Content}

/-- What is read at a place. -/
def textAt (files : Files) (place : List Text) : Except FileError Text :=
  match files.node? place with
  | none => .error .notFound
  | some .directory => .error .isADirectory
  | some (.file .bytes) => .error .notText
  | some (.file (.text t)) => .ok t

/-- What is read at the end of a path that is followed from a directory. -/
def readFrom (files : Files) (directory : List Text) (path : Text) : Except FileError Text :=
  files.follow directory (Text.splitOn '/' path) >>= files.textAt

theorem read_eq (files : Files) (path : Text) :
    files.read path = files.locate path >>= files.textAt := by
  unfold read
  congr 1
  funext place
  unfold textAt
  cases files.node? place with
  | none => rfl
  | some node =>
    cases node with
    | directory => rfl
    | file c => cases c <;> rfl

/-- A path is followed from where it starts. -/
theorem read_eq_readFrom (h : path ≠ []) :
    files.read path = files.readFrom (files.start path) path := by
  rw [read_eq, locate, if_neg h, placeOf, readFrom]

theorem follow_of_locate (h : files.locate path = .ok place) :
    path ≠ [] ∧ files.follow (files.start path) (Text.splitOn '/' path) = .ok place := by
  unfold locate at h
  split at h
  · cases h
  · next hne => exact ⟨hne, h⟩

/-- A text that is read lies in a file. -/
theorem exists_file_of_read (h : files.read path = .ok t) :
    ∃ place, files.locate path = .ok place ∧ files.node? place = some (.file (.text t)) := by
  rw [read_eq] at h
  cases hplace : files.locate path with
  | error e =>
    rw [hplace] at h
    cases h
  | ok place =>
    rw [hplace] at h
    change files.textAt place = .ok t at h
    refine ⟨place, rfl, ?_⟩
    unfold textAt at h
    split at h
    · cases h
    · cases h
    · cases h
    · next hnode =>
      cases h
      exact hnode

/-! ## Directories of files -/

/-- A path that leads to a file leads through the directory of that file. -/
theorem exists_steps_of_locate (h : files.locate path = .ok place)
    (hfile : files.node? place = some (.file c)) :
    ∃ before directory name, Text.splitOn '/' path = before ++ [name] ∧
      files.follow (files.start path) before = .ok directory ∧ place = directory ++ [name] ∧
      FilePath.isIdle name = false := by
  obtain ⟨-, hfollow⟩ := follow_of_locate h
  have hne : Text.splitOn '/' path ≠ [] := Text.splitOn_ne_nil '/' path
  rw [← List.dropLast_concat_getLast hne] at hfollow
  obtain ⟨directory, hbefore, hplace, hname⟩ :=
    exists_directory_of_follow (below_start files path) hfollow hfile
  exact ⟨_, directory, _, (List.dropLast_concat_getLast hne).symm, hbefore, hplace, hname⟩

/-- A relative path that is joined to the directory part of the path of a file is followed from the
directory of that file. -/
theorem read_join_parent (h : files.locate path = .ok (directory ++ [name]))
    (hnode : files.node? (directory ++ [name]) = some (.file c))
    (hfile : FilePath.isAbsolute file = false) (hne : file ≠ []) :
    files.read (FilePath.join ((FilePath.parent? path).getD ['.']) file) =
      files.readFrom directory file := by
  obtain ⟨before, directory', name', hsteps, hbefore, hplace, hname⟩ :=
    exists_steps_of_locate h hnode
  obtain ⟨rfl, -⟩ := List.append_inj' hplace rfl
  obtain ⟨steps, hpart⟩ := FilePath.exists_isDirectoryPart hsteps hname
  have hstart : files.start (FilePath.join ((FilePath.parent? path).getD ['.']) file) =
      files.start path := by
    unfold start
    rw [hpart.isAbsolute_join hsteps (follow_of_locate h).1 hfile hne]
  have hdirectory : files.follow (files.start path) steps = .ok directory := by
    obtain ⟨idle, rfl, hall⟩ := hpart.idle_end
    obtain ⟨next, hnext, hend⟩ := exists_follow_of_append hbefore
    rwa [← follow_of_idle hall hend] at hnext
  rw [read_eq_readFrom (hpart.join_ne_nil hfile hne), hstart, readFrom,
    hpart.splitOn_join file hfile, follow_append hdirectory, readFrom]

/-- The current directory by name in front of a relative path changes nothing. -/
theorem locate_here (habs : FilePath.isAbsolute path = false) (hne : path ≠ []) :
    files.locate ('.' :: '/' :: path) = files.locate path := by
  have hhere : files.start ('.' :: '/' :: path) = files.current := rfl
  have hstart : files.start path = files.current := by simp [start, habs]
  have hmoves : Moves files files.current ['.'] files.current :=
    .stay (node?_of_prefix_current List.prefix_rfl) rfl
  simp only [locate, placeOf, hne, if_false, reduceCtorEq, FilePath.splitOn_here, hhere, hstart,
    follow_cons_of_moves hmoves]

/-- Such a path has a directory part. -/
theorem parent?_here_ne_nil (h : files.locate path = .ok place)
    (hnode : files.node? place = some (.file c)) :
    FilePath.parent? ('.' :: '/' :: path) ≠ some [] := by
  obtain ⟨before, directory, name, hsteps, -, -, hname⟩ := exists_steps_of_locate h hnode
  rw [FilePath.parent?_here hsteps hname]
  cases FilePath.dropIdleEnd before <;> simp [Text.joinWith]

end Files

end DotQuery
