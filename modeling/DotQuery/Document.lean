import DotQuery.Block.Basic
import DotQuery.Files.Load
import DotQuery.Json.Reader

/-!
# Documents

Where documents come from: a JSON file, a text with one document per line, or a block. The path `-`
is the standard input.
-/

namespace DotQuery

def stdinPath : Text := ['-']

/-- All text of a file or of the standard input. -/
def readSource (path : Text) : Loading Text :=
  ExceptT.mk <|
    if path = stdinPath then .readStdin fun t => .done (.ok t)
    else .readFile path fun r =>
      .done (r.mapError fun e => ⟨["reading ".toList ++ path], .file e⟩)

/-- Read a text as JSON, as part of a task. -/
def readJson (task t : Text) : Except Failure Value :=
  match Value.ofJson? t with
  | some v => .ok v
  | none => .error ⟨[task], .badJson⟩

def loadJson (path : Text) : Loading Value := do
  let t ← readSource path
  Loading.ofExcept (readJson ("parsing JSON from ".toList ++ path) t)

/-! ## Documents in lines -/

/-- The documents of lines, of which the first has the given number; blank lines hold none. -/
def documentsFrom (number : Nat) : List Text → Except Failure (List Value)
  | [] => .ok []
  | l :: ls =>
    if l.trim = [] then documentsFrom (number + 1) ls
    else do
      let v ← readJson ("ndjson line ".toList ++ Text.ofNat number) l
      let vs ← documentsFrom (number + 1) ls
      return v :: vs

def documentsOfLines (t : Text) : Except Failure (List Value) := documentsFrom 1 t.lines

/-! ## Blocks -/

/-- A block with its document. -/
structure LoadedBlock where
  block : Block
  document : Value

def blockOfText (path source : Text) : Except Failure Block :=
  (Block.parse source).mapError fun e =>
    .ofCause (.other ("block ".toList ++ path ++ ": ".toList ++ e.message))

/-- The document is the body of the block, or the file it names, seen from the directory of the
block's own file. -/
def loadBlock (path : Text) : Loading LoadedBlock := do
  let source ← readSource path
  let block ← Loading.ofExcept (blockOfText path source)
  let document ←
    match block.file with
    | some file => loadJson (FilePath.join ((FilePath.parent? path).getD ['.']) file)
    | none =>
      Loading.ofExcept (readJson ("parsing block body of ".toList ++ path) block.body)
  return ⟨block, document⟩

end DotQuery
