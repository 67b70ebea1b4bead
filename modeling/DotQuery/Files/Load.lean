import DotQuery.Failure

/-!
# Loading

A `Load` is a computation that may ask for files and for the standard input. `Load.run` answers from
a `World`, where the standard input can be read once.
-/

namespace DotQuery

structure World where
  files : Files
  stdin : Text

inductive Load (α : Type) where
  | done (a : α)
  | readFile (path : Text) (next : Except FileError Text → Load α)
  | readStdin (next : Text → Load α)
  /-- The directory of a file that must be there, seen from the root, with all steps followed. -/
  | findDirectory (path : Text) (next : Except FileError Text → Load α)
  /-- Make a directory, and those above it, if it is not there. -/
  | makeDirectory (path : Text) (next : Except FileError Unit → Load α)
  /-- Make an empty file in a directory, if it is not there. -/
  | makeFile (directory name : Text) (next : Except FileError Unit → Load α)

namespace Load

def bind {α β : Type} : Load α → (α → Load β) → Load β
  | done a, f => f a
  | readFile path next, f => readFile path fun r => (next r).bind f
  | readStdin next, f => readStdin fun t => (next t).bind f
  | findDirectory path next, f => findDirectory path fun r => (next r).bind f
  | makeDirectory path next, f => makeDirectory path fun r => (next r).bind f
  | makeFile directory name next, f => makeFile directory name fun r => (next r).bind f

instance : Monad Load where
  pure := done
  bind := bind

def run {α : Type} : Load α → World → α × World
  | done a, w => (a, w)
  | readFile path next, w => (next (w.files.read path)).run w
  | readStdin next, w => (next w.stdin).run { w with stdin := [] }
  | findDirectory path next, w =>
    (next ((w.files.locate path).map fun place => '/' :: Text.joinWith ['/'] place.dropLast)).run w
  | makeDirectory path next, w =>
    match w.files.makeDirectories path with
    | .ok files => (next (.ok ())).run { w with files }
    | .error e => (next (.error e)).run w
  | makeFile directory name next, w =>
    match w.files.append directory name [] with
    | .ok files => (next (.ok ())).run { w with files }
    | .error e => (next (.error e)).run w

end Load

/-- A loading computation that may fail. -/
abbrev Loading := ExceptT Failure Load

namespace Loading

def fail {α : Type} (f : Failure) : Loading α := ExceptT.mk (.done (.error f))

def ofExcept {α : Type} (r : Except Failure α) : Loading α := ExceptT.mk (.done r)

end Loading

end DotQuery
