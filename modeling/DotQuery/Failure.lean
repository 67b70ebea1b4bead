import DotQuery.Files.Basic
import DotQuery.Query.Execute

/-!
# Failures

Why a command failed: a cause, and around it the texts that say what was being done, the outermost
first.
-/

namespace DotQuery

inductive Cause where
  | compile (e : CompileError)
  | execution (e : ExecutionError)
  | badJson
  | badConfiguration
  | file (e : FileError)
  | other (text : Text)

namespace Cause

/-- The texts of a cause, each explained by the next. A bad predicate is explained by its condition;
where a text or a file could not be read, what was being done says enough. -/
def texts : Cause → List Text
  | compile e => [e.message]
  | execution (.badPredicate position e) =>
    [(ExecutionError.badPredicate position e).message, e.message]
  | execution e => [e.message]
  | badJson => []
  | badConfiguration => []
  | file _ => []
  | other t => [t]

/-- What is wrong with a text or a file that could not be read. -/
def detail : Cause → List Text
  | badJson => ["not a JSON document".toList]
  | badConfiguration => ["not a configuration in TOML".toList]
  | file e => [e.message]
  | _ => []

end Cause

structure Failure where
  context : List Text
  cause : Cause

namespace Failure

def ofCause (c : Cause) : Failure := ⟨[], c⟩

/-- The failure of a larger task. -/
def within (task : Text) (f : Failure) : Failure := { f with context := task :: f.context }

def chain (f : Failure) : List Text := f.context ++ f.cause.texts

/-- The chain, down to what was wrong with a text or a file. -/
def fullChain (f : Failure) : List Text := f.chain ++ f.cause.detail

/-- What the program says when a command fails: the outermost text, and the others as its causes. -/
def explanation (f : Failure) : Text :=
  "Error: ".toList ++
    match f.fullChain with
    | [] => []
    | [t] => t
    | [t, u] => t ++ "\n\nCaused by:\n    ".toList ++ u
    | t :: us =>
      t ++ "\n\nCaused by:".toList ++
        us.zipIdx.flatMap fun (u, i) => '\n' :: Text.padLeft 5 (Text.ofNat i) ++ ": ".toList ++ u

/-- All texts on one line. -/
def message (f : Failure) : Text := Text.joinWith ": ".toList f.fullChain

end Failure

end DotQuery
