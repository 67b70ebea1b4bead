import DotQuery.Block.Lexer

/-!
# Directives

A directive line starts with `#qj-`. It gives the number of a block, its description or the file of
its document, or hides the header.
-/

namespace DotQuery.Block

inductive Directive where
  | id (text : Text)
  | description (text : Text)
  | hideHeader
  | file (path : Text)
deriving DecidableEq

/-- A line that is no directive, with the column where reading it stopped, counted in bytes. Where a
directive ended too early nothing in particular was expected. -/
structure SyntaxError where
  line : Text
  column : Nat
  expected : Text
deriving DecidableEq

def SyntaxError.message (e : SyntaxError) : Text :=
  "block syntax error: ".toList ++ e.line ++ '\n' :: List.replicate e.column ' ' ++
    '^' :: '\n' :: e.expected

namespace Directive

def marker : Text := "#qj-".toList

/-- The four forms of a directive, without the marker. -/
def forms : List (Text → Lexed Directive) :=
  [fun t => (labelledValue "id-desc".toList t).map description,
    fun t =>
      match keyword "id-ds".toList t with
      | ⟨some (), r⟩ => (restOfLine r).map fun _ => hideHeader
      | ⟨none, r⟩ => ⟨none, r⟩,
    fun t => (labelledValue "id".toList t).map id,
    fun t => (labelledValue "file".toList t).map file]

/-- The first form that matches; each starts at the same place, and if none does the place where the
last one stopped is kept. -/
def firstForm (t : Text) : List (Text → Lexed Directive) → Lexed Directive
  | [] => ⟨none, t⟩
  | [form] => form t
  | form :: others =>
    match form t with
    | ⟨some d, r⟩ => ⟨some d, r⟩
    | ⟨none, _⟩ => firstForm t others

/-- Read a line that starts with the marker; nothing may be left over. -/
def parse (line : Text) : Except SyntaxError Directive :=
  let stop (r : Text) (expected : Text) : Except SyntaxError Directive :=
    .error ⟨line, line.byteLength - Text.byteLength r, expected⟩
  match firstForm (line.drop marker.length) forms with
  | ⟨some d, []⟩ => .ok d
  | ⟨some _, r⟩ => stop r []
  | ⟨none, r⟩ => stop r "expected directive (id, id-desc, id-ds, file)".toList

end Directive

end DotQuery.Block
