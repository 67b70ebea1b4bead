import DotQuery.Block.Directive

/-!
# Blocks

A block is a text of directive lines and of the lines of a JSON document between them. Of several
directives of one sort the first counts.
-/

namespace DotQuery

structure Block where
  id : Nat
  description : Option Text
  showHeader : Bool
  /-- The file of the document, as the directive names it. -/
  file : Option Text
  /-- All lines that are no directives. -/
  body : Text
deriving DecidableEq

inductive BlockError where
  | missingId
  | invalidId (found : Text)
  | badDirective (e : Block.SyntaxError)
deriving DecidableEq

namespace BlockError

def message : BlockError → Text
  | missingId => "no #qj-id directive found".toList
  | invalidId found => "#qj-id must be a number, got '".toList ++ found ++ "'".toList
  | badDirective e => e.message

end BlockError

namespace Block

/-! ## Lines -/

def isDirectiveLine (t : Text) : Bool := (Text.afterToken? Directive.marker t.trim).isSome

/-- What the lines read so far say. -/
structure Draft where
  id : Option Text
  description : Option Text
  showHeader : Bool
  file : Option Text
  /-- The lines that are no directives, the last one first. -/
  body : List Text
deriving DecidableEq

namespace Draft

def empty : Draft := ⟨none, none, true, none, []⟩

/-- A directive that is not the first of its sort changes nothing. An empty description is none, but
an empty file hides later ones. -/
def follow (d : Draft) : Directive → Draft
  | .id t => { d with id := d.id.or (some t) }
  | .description t => if t = [] then d else { d with description := d.description.or (some t) }
  | .hideHeader => { d with showHeader := false }
  | .file t => { d with file := d.file.or (some t) }

def readLine (d : Draft) (t : Text) : Except SyntaxError Draft :=
  if isDirectiveLine t then (Directive.parse t.trim).map d.follow
  else .ok { d with body := t :: d.body }

def readLines (d : Draft) : List Text → Except SyntaxError Draft
  | [] => .ok d
  | t :: ts => do
    let next ← d.readLine t
    next.readLines ts

/-- The block of a draft, if it has a number. -/
def finish (d : Draft) : Except BlockError Block :=
  match d.id with
  | none => .error .missingId
  | some text =>
    match number text with
    | ⟨some id, []⟩ =>
      .ok
        { id
          description := d.description
          showHeader := d.showHeader
          file := d.file.filter (· ≠ [])
          body := Text.joinWith ['\n'] d.body.reverse }
    | _ => .error (.invalidId text)

end Draft

/-! ## Parsing -/

def parse (source : Text) : Except BlockError Block :=
  match Draft.empty.readLines source.lines with
  | .error e => .error (.badDirective e)
  | .ok d => d.finish

/-! ## Header -/

def defaultDescription : Text := "»»» Query JSON «««".toList

def headerDescription (b : Block) : Text := b.description.getD defaultDescription

/-- The lines above the document, unless they are hidden. -/
def header (b : Block) : Text :=
  if b.showHeader then
    b.headerDescription ++ '\n' :: "ID: ".toList ++ Text.ofNat b.id ++ ['\n']
  else []

end Block

end DotQuery
