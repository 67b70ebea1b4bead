import DotQuery.Document
import DotQuery.Proofs.Block.Outcome
import DotQuery.Proofs.Files.Directory
import DotQuery.Proofs.Files.Load

/-!
# Documents that blocks name

A block that names a file is loaded in two steps: the block, then the file it names, seen from the
directory of the block. Where that path is `-`, the second step reads the standard input instead,
which happens for a block with a bare name only.
-/

namespace DotQuery

variable {path source file : Text} {block : Block}

/-- The document in what was read from a path. -/
def documentOf (path : Text) (r : Except FileError Text) : Except Failure Value := do
  let t ← r.mapError fun e => ⟨["reading ".toList ++ path], .file e⟩
  readJson ("parsing JSON from ".toList ++ path) t

/-- The path of the file that a block names. -/
def documentPath (path file : Text) : Text :=
  FilePath.join ((FilePath.parent? path).getD ['.']) file

/-! ## Requests -/

theorem run_loadJson (h : path ≠ stdinPath) :
    (loadJson path).run = .readFile path fun r => .done (documentOf path r) := by
  unfold loadJson readSource
  rw [if_neg h]
  refine congrArg (Load.readFile path) (funext fun r => ?_)
  cases r <;> rfl

theorem run_loadJson_stdin :
    (loadJson stdinPath).run = .readStdin fun t => .done (documentOf stdinPath (.ok t)) := rfl

theorem ofExcept_ok_bind {α β : Type} (a : α) (f : α → Loading β) :
    (Loading.ofExcept (.ok a) >>= f) = f a := rfl

theorem run_loadBlock (hpath : path ≠ stdinPath) (hparse : Block.parse source = .ok block)
    (hfile : block.file = some file) :
    ∃ next, (loadBlock path).run = .readFile path next ∧
      next (.ok source) = (loadJson (documentPath path file)).run >>= fun r =>
        .done (r.map (LoadedBlock.mk block)) := by
  have hblock : blockOfText path source = .ok block := by
    rw [blockOfText, hparse]
    rfl
  unfold loadBlock
  rw [readSource, if_neg hpath]
  refine ⟨_, rfl, ?_⟩
  simp only [Except.mapError, Load.bind, ExceptT.bindCont, hblock, ofExcept_ok_bind, hfile]
  refine congrArg (Load.bind (loadJson (documentPath path file)).run) (funext fun r => ?_)
  cases r <;> rfl

/-! ## The place of the document -/

/-- A path behind a directory has a `/`, which `-` has not. -/
theorem documentPath_eq_stdinPath_iff (hfile : FilePath.isAbsolute file = false) :
    documentPath path file = stdinPath ↔ file = stdinPath ∧ FilePath.parent? path = some [] := by
  have hslash : '/' ∉ stdinPath := by decide
  unfold documentPath FilePath.join
  cases FilePath.parent? path with
  | none =>
    simp [hfile, stdinPath]
  | some directory =>
    by_cases hempty : directory = []
    · simp [hempty]
    · simp only [Option.getD_some, hfile, hempty, Bool.false_or, decide_false, Bool.false_eq_true,
        if_false, Option.some.injEq, and_false, iff_false]
      split
      · next hlast =>
        intro h
        exact hslash (h ▸ List.mem_append_left file (List.mem_of_getLast? hlast))
      · intro h
        exact hslash (h ▸ List.mem_append_right directory List.mem_cons_self)

theorem file_ne_nil (hparse : Block.parse source = .ok block) (hfile : block.file = some file) :
    file ≠ [] := by
  cases Block.parse_eq_iff.mp hparse
  simpa using (Option.filter_eq_some_iff.mp hfile).2

/-- The document that a block names is read from the directory of the block. -/
theorem run_loadBlock_of_located {w : World} {directory : List Text} {name : Text}
    (hpath : path ≠ stdinPath) (hparse : Block.parse source = .ok block)
    (hfile : block.file = some file) (hrelative : FilePath.isAbsolute file = false)
    (hplain : documentPath path file ≠ stdinPath)
    (hplace : w.files.locate path = .ok (directory ++ [name]))
    (hnode : w.files.node? (directory ++ [name]) = some (.file (.text source))) :
    (loadBlock path).run.run w =
      ((documentOf (documentPath path file) (w.files.readFrom directory file)).map
        (LoadedBlock.mk block), w) := by
  obtain ⟨next, hrun, hnext⟩ := run_loadBlock hpath hparse hfile
  have hread : w.files.read path = .ok source := by
    rw [Files.read_eq, hplace]
    change w.files.textAt (directory ++ [name]) = _
    rw [Files.textAt, hnode]
  have hdocument : w.files.read (documentPath path file) = w.files.readFrom directory file :=
    Files.read_join_parent hplace hnode hrelative (file_ne_nil hparse hfile)
  rw [hrun, Load.run, hread, hnext, Load.run_bind, run_loadJson hplain]
  simp only [Load.run, hdocument]

theorem mapError_map {α β ε δ : Type} (r : Except ε α) (f : α → β) (g : ε → δ) :
    (r.map f).mapError g = (r.mapError g).map f := by
  cases r <;> rfl

/-- How a path is written counts only for the texts around a failure. -/
theorem mapError_documentOf (path path' : Text) (r : Except FileError Text) :
    (documentOf path r).mapError Failure.cause = (documentOf path' r).mapError Failure.cause := by
  cases r with
  | error e => rfl
  | ok t =>
    change (readJson _ t).mapError _ = (readJson _ t).mapError _
    unfold readJson
    cases Value.ofJson? t <;> rfl

/-- Two paths of one block differ no more than in the texts around a failure. -/
theorem result_loadBlock_of_located {path' : Text} {w : World} {directory : List Text}
    {name : Text} (hpath : path ≠ stdinPath) (hpath' : path' ≠ stdinPath)
    (hparse : Block.parse source = .ok block) (hfile : block.file = some file)
    (hrelative : FilePath.isAbsolute file = false) (hplain : documentPath path file ≠ stdinPath)
    (hplain' : documentPath path' file ≠ stdinPath)
    (hplace : w.files.locate path = .ok (directory ++ [name]))
    (hplace' : w.files.locate path' = .ok (directory ++ [name]))
    (hnode : w.files.node? (directory ++ [name]) = some (.file (.text source))) :
    ((loadBlock path').result w).mapError Failure.cause =
      ((loadBlock path).result w).mapError Failure.cause := by
  unfold Loading.result
  rw [run_loadBlock_of_located hpath hparse hfile hrelative hplain hplace hnode,
    run_loadBlock_of_located hpath' hparse hfile hrelative hplain' hplace' hnode]
  simp only [mapError_map]
  rw [mapError_documentOf _ (documentPath path file)]

/-! ## Blocks that name a file -/

/-- After a block, the file that it names is asked for, or the standard input if that is `-` and
the block has a bare name. In a tree of files all but the latter is read from the directory of the
block, however its path is written. -/
theorem loadBlock_from_directory (hpath : path ≠ stdinPath)
    (hparse : Block.parse source = .ok block) (hfile : block.file = some file)
    (hrelative : FilePath.isAbsolute file = false) :
    (∃ next, (loadBlock path).run = .readFile path next ∧
      (¬ (file = stdinPath ∧ FilePath.parent? path = some []) → next (.ok source) =
        .readFile (documentPath path file) fun r =>
          .done ((documentOf (documentPath path file) r).map (LoadedBlock.mk block))) ∧
      (file = stdinPath ∧ FilePath.parent? path = some [] → next (.ok source) =
        .readStdin fun t => .done ((documentOf stdinPath (.ok t)).map (LoadedBlock.mk block)))) ∧
    ∀ w : World, w.files.read path = .ok source →
      ¬ (file = stdinPath ∧ FilePath.parent? path = some []) →
      (∃ directory name, w.files.locate path = .ok (directory ++ [name]) ∧
        (loadBlock path).run.run w =
          ((documentOf (documentPath path file) (w.files.readFrom directory file)).map
            (LoadedBlock.mk block), w)) ∧
      (∀ path', path' ≠ stdinPath → w.files.locate path' = w.files.locate path →
        ¬ (file = stdinPath ∧ FilePath.parent? path' = some []) →
        ((loadBlock path').result w).mapError Failure.cause =
          ((loadBlock path).result w).mapError Failure.cause) ∧
      (FilePath.isAbsolute path = false →
        ((loadBlock ('.' :: '/' :: path)).result w).mapError Failure.cause =
          ((loadBlock path).result w).mapError Failure.cause) := by
  have hstdin (p : Text) : documentPath p file = stdinPath ↔
      file = stdinPath ∧ FilePath.parent? p = some [] := documentPath_eq_stdinPath_iff hrelative
  refine ⟨?_, fun w hread hplain => ?_⟩
  · obtain ⟨next, hrun, hnext⟩ := run_loadBlock hpath hparse hfile
    refine ⟨next, hrun, fun hplain => ?_, fun hbare => ?_⟩
    · rw [hnext, run_loadJson fun h => hplain ((hstdin path).mp h)]
      rfl
    · rw [hnext, (hstdin path).mpr hbare, run_loadJson_stdin]
      rfl
  · obtain ⟨place, hplace, hnode⟩ := Files.exists_file_of_read hread
    obtain ⟨before, directory, name, -, -, rfl, -⟩ := Files.exists_steps_of_locate hplace hnode
    have hplain' : documentPath path file ≠ stdinPath := fun h => hplain ((hstdin path).mp h)
    have hsame (path' : Text) (hpath' : path' ≠ stdinPath)
        (hlocate : w.files.locate path' = w.files.locate path)
        (hbare : ¬ (file = stdinPath ∧ FilePath.parent? path' = some [])) :=
      result_loadBlock_of_located hpath hpath' hparse hfile hrelative hplain'
        (fun h => hbare ((hstdin path').mp h)) hplace (hlocate.trans hplace) hnode
    refine ⟨⟨directory, name, hplace,
      run_loadBlock_of_located hpath hparse hfile hrelative hplain' hplace hnode⟩, hsame,
      fun habs => ?_⟩
    exact hsame _ (by simp [stdinPath]) (Files.locate_here habs (Files.follow_of_locate hplace).1)
      fun h => Files.parent?_here_ne_nil hplace hnode h.2

/-- The file `-` of a directory is read from there. -/
theorem loadBlock_from_directory_dash :
    let path := "d/b.qjson".toList
    let source := "#qj-id: 1\n#qj-file: -\n".toList
    let block : Block := ⟨1, none, true, some stdinPath, []⟩
    let files := Files.ofList [(path, .text source), ("d/-".toList, .text "[2]".toList)]
    let w : World := ⟨files, "[1]".toList⟩
    (path ≠ stdinPath ∧ Block.parse source = .ok block ∧ FilePath.isAbsolute stdinPath = false ∧
      files.read path = .ok source ∧ FilePath.parent? path = some ['d']) ∧
    (∃ directory name, files.locate path = .ok (directory ++ [name]) ∧
      (loadBlock path).run.run w =
        ((documentOf "d/-".toList (files.readFrom directory stdinPath)).map (LoadedBlock.mk block),
          w)) ∧
    (loadBlock path).result w = .ok ⟨block, .array [.number (.whole 2)]⟩ := by
  intro path source block files w
  have hpath : path ≠ stdinPath := by decide
  have hparse : Block.parse source = .ok block := by rfl
  have hrelative : FilePath.isAbsolute stdinPath = false := by decide
  have hread : w.files.read path = .ok source := by rfl
  have hparent : FilePath.parent? path = some ['d'] := by rfl
  have hplain : ¬ (stdinPath = stdinPath ∧ FilePath.parent? path = some []) := by
    rw [hparent]
    decide
  have hload := (loadBlock_from_directory hpath hparse rfl hrelative).2 w hread hplain
  exact ⟨⟨hpath, hparse, hrelative, hread, hparent⟩, hload.1, rfl⟩

/-- Blocks above the current directory, by relative and by absolute paths. -/
example :
    let block : Block := ⟨1, none, true, some stdinPath, []⟩
    let files := Files.ofList
      [("/b.qjson".toList, .text "#qj-id: 1\n#qj-file: -\n".toList),
        ("/-".toList, .text "[2]".toList)]
    let w : World := ⟨files, "[1]".toList⟩
    (loadBlock "../b.qjson".toList).result w = .ok ⟨block, .array [.number (.whole 2)]⟩ ∧
      (loadBlock "/b.qjson".toList).result w = .ok ⟨block, .array [.number (.whole 2)]⟩ :=
  ⟨rfl, rfl⟩

/-- With a bare name the same block takes the standard input for the file `-`. -/
theorem bare_block_reads_stdin :
    let path := "b.qjson".toList
    let source := "#qj-id: 1\n#qj-file: -\n".toList
    let block : Block := ⟨1, none, true, some stdinPath, []⟩
    let files := Files.ofList [(path, .text source), (stdinPath, .text "[2]".toList)]
    let w : World := ⟨files, "[1]".toList⟩
    path ≠ stdinPath ∧ Block.parse source = .ok block ∧
      files.locate path = .ok (files.current ++ [path]) ∧
      files.readFrom files.current stdinPath = .ok "[2]".toList ∧
      (loadBlock path).result w = .ok ⟨block, .array [.number (.whole 1)]⟩ ∧
      (loadBlock ('.' :: '/' :: path)).result w = .ok ⟨block, .array [.number (.whole 2)]⟩ :=
  ⟨by decide, rfl, rfl, rfl, rfl, rfl⟩

end DotQuery
