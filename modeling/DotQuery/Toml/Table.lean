import DotQuery.Toml.Scalar

/-!
# TOML tables

A document is a list of statements that open tables and set fields. Each of them is carried out on a
tree that remembers how a table came to be, because that decides who may add to it: a table may be
opened once by a header, and dotted keys add only to tables that dotted keys have made.
-/

namespace DotQuery.Toml

/-- How a table came to be: by its own header, by the header of a table below it, or by a dotted
key. -/
inductive Origin where
  | header
  | implied
  | dotted
deriving DecidableEq

inductive Node where
  /-- A value that nothing can be added to. -/
  | value (v : Toml)
  | table (origin : Origin) (fields : List (Text × Node))
  /-- Tables in an array, of which the last is open. -/
  | tables (done : List (List (Text × Node))) (last : List (Text × Node))

/-- A change of a table, if it is allowed. -/
abbrev Edit := Fields Node → Option (Fields Node)

/-- Carry out an edit in the table that a header names, which is made if it is not there. -/
def inHeader : List Text → Edit → Edit
  | [], f, fields => f fields
  | name :: names, f, fields =>
    match fields.lookup name with
    | none => (inHeader names f []).map fun inner => fields.put name (.table .implied inner)
    | some (.table origin inner) =>
      (inHeader names f inner).map fun inner => fields.put name (.table origin inner)
    | some (.tables done last) =>
      (inHeader names f last).map fun last => fields.put name (.tables done last)
    | some (.value _) => none

def openTable (name : Text) : Edit := fun fields =>
  match fields.lookup name with
  | none => some (fields.put name (.table .header []))
  | some (.table .implied inner) => some (fields.put name (.table .header inner))
  | _ => none

def openItem (name : Text) : Edit := fun fields =>
  match fields.lookup name with
  | none => some (fields.put name (.tables [] []))
  | some (.tables done last) => some (fields.put name (.tables (done ++ [last]) []))
  | _ => none

/-- Set the field of a dotted key. The table that it ends in must be one that dotted keys have
made. -/
def assign (v : Toml) : List Text → Edit
  | [], _ => none
  | [name], fields =>
    if (fields.lookup name).isSome then none else some (fields.put name (.value v))
  | name :: names, fields =>
    match fields.lookup name with
    | none => (assign v names []).map fun inner => fields.put name (.table .dotted inner)
    | some (.table .dotted inner) =>
      (assign v names inner).map fun inner => fields.put name (.table .dotted inner)
    | some (.table .implied inner) =>
      if names.length = 1 then none
      else (assign v names inner).map fun inner => fields.put name (.table .implied inner)
    | some (.tables done last) =>
      if names.length = 1 then none
      else (assign v names last).map fun last => fields.put name (.tables done last)
    | _ => none

mutual

def Node.toToml : Node → Toml
  | .value v => v
  | .table _ fields => .table (fieldsToToml fields)
  | .tables done last => .array (tablesToToml done ++ [.table (fieldsToToml last)])

def fieldsToToml : List (Text × Node) → List (Text × Toml)
  | [] => []
  | (name, n) :: fs => (name, n.toToml) :: fieldsToToml fs

def tablesToToml : List (List (Text × Node)) → List Toml
  | [] => []
  | t :: ts => .table (fieldsToToml t) :: tablesToToml ts

end

/-- The fields of an inline table, in the order of its keys. -/
def inlineTable? : List (List Text × Toml) → Fields Node → Option Toml
  | [], fields => some (.table (fieldsToToml fields))
  | (key, v) :: rest, fields => (assign v key fields).bind (inlineTable? rest)

/-! ## Documents -/

inductive Statement where
  | header (path : List Text)
  | itemHeader (path : List Text)
  | assign (key : List Text) (v : Toml)

/-- Carry out statements, where `current` is the header that was seen last. -/
def build (current : List Text) : List Statement → Edit
  | [], fields => some fields
  | .header path :: rest, fields =>
    match path.getLast? with
    | none => none
    | some name => (inHeader path.dropLast (openTable name) fields).bind (build path rest)
  | .itemHeader path :: rest, fields =>
    match path.getLast? with
    | none => none
    | some name => (inHeader path.dropLast (openItem name) fields).bind (build path rest)
  | .assign key v :: rest, fields =>
    (inHeader current (Toml.assign v key) fields).bind (build current rest)

def document? (statements : List Statement) : Option (Fields Toml) :=
  (build [] statements []).map fieldsToToml

end DotQuery.Toml
