import DotQuery.Failure
import DotQuery.Text.Quoted
import DotQuery.Toml.Reader

/-!
# Configuration

A configuration says what is logged and how results are written. It is read from a TOML document
where every section and every key may be missing, and unknown keys mean nothing. `Config.parse`
accepts only known log levels.
-/

namespace DotQuery

inductive LogFormat where
  | plain
  | json
deriving DecidableEq

namespace Config

structure Logging where
  level : Text
  /-- Levels of single modules, by their names. -/
  modules : List (Text × Text)
  /-- A further place for log lines, seen from the directory of the configuration. -/
  file : Option Text
  format : LogFormat
deriving DecidableEq

structure Output where
  /-- Whether values are written on several lines. -/
  pretty : Bool
  /-- Whether the input has one document per line. -/
  ndjson : Bool
deriving DecidableEq

def Logging.default : Logging := ⟨"warn".toList, [], none, .plain⟩

def Output.default : Output := ⟨true, false⟩

end Config

structure Config where
  logging : Config.Logging
  output : Config.Output
deriving DecidableEq

namespace Config

def default : Config := ⟨.default, .default⟩

/-! ## Decoding -/

/-- The name under which a date or time counts as a table of one field. -/
def datetimeField : Text := "$__toml_private_datetime".toList

/-- A table as its fields, where the other fields mean nothing, but have values. An array stands for
a record by the order of its names, and what follows them is not looked at. -/
def record? (names : List Text) : Toml → Option (Fields Toml)
  | .table fields =>
    if fields.all fun (name, t) => names.contains name || t.hasValue then some fields else none
  | .array items => some (names.zip items)
  | .datetime t => some [(datetimeField, .string t)]
  | _ => none

def string? : Toml → Option Text
  | .string t => some t
  | _ => none

def boolean? : Toml → Option Bool
  | .boolean b => some b
  | _ => none

/-- A choice is its name, or a table of only its name with nothing inside. -/
def choice? : Toml → Option Text
  | .string t => some t
  | .table [(name, .table [])] => some name
  | .table [(name, .array [])] => some name
  | _ => none

def logFormat? (t : Toml) : Option LogFormat := do
  let name ← choice? t
  if name = "plain".toList then some .plain
  else if name = "json".toList then some .json
  else none

def levels? (t : Toml) : Option (List (Text × Text)) := do
  let fields ← match t with | .array _ => none | t => record? [] t
  fields.mapM fun (name, level) => (string? level).map (name, ·)

/-- A field that may be missing, but not hold something else. -/
def fieldOr {α : Type} (missing : α) (decode : Toml → Option α) (name : String)
    (fields : Fields Toml) : Option α :=
  match fields.lookup name.toList with
  | none => some missing
  | some t => decode t

def Logging.ofToml? (t : Toml) : Option Logging := do
  let names := ["level", "modules", "file", "format"].map String.toList
  let fields ← record? names t
  let level ← fieldOr Logging.default.level string? "level" fields
  let modules ← fieldOr [] levels? "modules" fields
  let file ← fieldOr none (fun t => (string? t).map some) "file" fields
  let format ← fieldOr .plain logFormat? "format" fields
  return { level, modules, file, format }

def Output.ofToml? (t : Toml) : Option Output := do
  let fields ← record? (["pretty", "ndjson"].map String.toList) t
  let pretty ← fieldOr true boolean? "pretty" fields
  let ndjson ← fieldOr false boolean? "ndjson" fields
  return { pretty, ndjson }

def ofToml? (t : Toml) : Option Config := do
  let fields ← record? (["logging", "output"].map String.toList) t
  let logging ← fieldOr .default Logging.ofToml? "logging" fields
  let output ← fieldOr .default Output.ofToml? "output" fields
  return { logging, output }

/-! ## Validation -/

def levelNames : List Text := ["trace", "debug", "info", "warn", "error", "off"].map String.toList

def isLevel (t : Text) : Bool := levelNames.any (Text.eqIgnoreCase t)

inductive Invalid where
  | level (found : Text)
  | emptyModule
  | moduleLevel (name found : Text)
deriving DecidableEq

def Invalid.message : Invalid → Text
  | level found =>
    "logging.level must be one of ".toList ++ Text.joinWith ['|'] levelNames ++ ", got ".toList ++
      found.quoted
  | emptyModule => "logging.modules: empty module name".toList
  | moduleLevel name found =>
    "logging.modules.".toList ++ name ++ ": level must be one of ".toList ++
      Text.joinWith ['|'] levelNames ++ ", got ".toList ++ found.quoted

/-- Module by module, the first that is wrong. -/
def validateModules : List (Text × Text) → Except Invalid Unit
  | [] => .ok ()
  | (name, level) :: rest =>
    if name.trim = [] then .error .emptyModule
    else if isLevel level then validateModules rest
    else .error (.moduleLevel name level)

def validate (c : Config) : Except Invalid Unit :=
  if isLevel c.logging.level then validateModules c.logging.modules
  else .error (.level c.logging.level)

def parse (t : Text) : Except Failure Config :=
  match (Toml.ofText? t).bind fun fields => ofToml? (.table fields) with
  | none => .error (.ofCause .badConfiguration)
  | some c =>
    match c.validate with
    | .ok () => .ok c
    | .error e => .error (.ofCause (.other e.message))

/-! ## Directives -/

/-- Insert a module where its name belongs. -/
def insertModule (m : Text × Text) : List (Text × Text) → List (Text × Text)
  | [] => [m]
  | n :: ns => if n.1 < m.1 then n :: insertModule m ns else m :: n :: ns

/-- The modules in the order of their names. -/
def sortModules : List (Text × Text) → List (Text × Text)
  | [] => []
  | m :: ms => insertModule m (sortModules ms)

/-- The log filter of a configuration: the level, and the level of each module. -/
def Logging.directives (l : Logging) : Text :=
  l.level ++ (sortModules l.modules).flatMap fun (name, level) => ',' :: name ++ '=' :: level

end Config

end DotQuery
