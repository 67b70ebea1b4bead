import DotQuery.Text.Fields

/-!
# Command line arguments

`Request.ofArguments` reads the arguments of the program: a command, its operands, and options in
any order. An option may be given once at each place where it is known; `--` ends the options.
-/

namespace DotQuery.CommandLine

inductive Command where
  | query (text : Text) (file : Option Text) (compact ndjson : Bool)
  | explain (text : Text)
  | block (file : Text) (query : Option Text) (compact : Bool)
  | format (template : Text) (file : Option Text)
deriving DecidableEq

inductive Request where
  | help
  | run (config : Option Text) (command : Command)
deriving DecidableEq

/-! ## Options -/

/-- An option with a letter takes a value; one without is only there or not. -/
structure OptionSpec where
  name : Text
  letter : Option Char
  /-- The value is a path, and no path is empty. -/
  isPath : Bool
deriving DecidableEq

def configOption : OptionSpec := ⟨"config".toList, some 'c', true⟩

def queryOption : OptionSpec := ⟨"query".toList, some 'q', false⟩

def compactOption : OptionSpec := ⟨"compact".toList, none, false⟩

def ndjsonOption : OptionSpec := ⟨"ndjson".toList, none, false⟩

inductive Operand where
  | text
  | path
deriving DecidableEq

/-- A command by its name, with the options it knows and the operands it can have. -/
structure CommandSpec where
  name : Text
  options : List OptionSpec
  operands : List Operand

def commands : List CommandSpec :=
  [⟨"query".toList, [configOption, compactOption, ndjsonOption], [.text, .path]⟩,
    ⟨"explain".toList, [configOption], [.text]⟩,
    ⟨"block".toList, [configOption, queryOption, compactOption], [.path]⟩,
    ⟨"format".toList, [configOption], [.text, .path]⟩]

def helpName : Text := "help".toList

/-- The options and operands that have been read. -/
structure Found where
  options : Fields Text
  operands : List Text

namespace Found

def empty : Found := ⟨[], []⟩

def add? (f : Found) (o : OptionSpec) (value : Text) : Option Found :=
  if (f.options.lookup o.name).isSome || (o.isPath && value == []) then none
  else some { f with options := f.options ++ [(o.name, value)] }

/-- Take the next operand, if the command can have one more; a path may not be empty. -/
def addOperand? (f : Found) (command : CommandSpec) (t : Text) : Option Found :=
  match command.operands[f.operands.length]? with
  | none => none
  | some kind =>
    if kind = .path ∧ t = [] then none else some { f with operands := f.operands ++ [t] }

def has (f : Found) (o : OptionSpec) : Bool := (f.options.lookup o.name).isSome

def value? (f : Found) (o : OptionSpec) : Option Text := f.options.lookup o.name

end Found

/-- What one argument is, where `specs` are the options that are known. -/
inductive Argument where
  | help
  | operand (t : Text)
  | endOfOptions
  /-- An option with its value, or one that takes none. -/
  | complete (o : OptionSpec) (value : Text)
  /-- An option whose value is the next argument. -/
  | waiting (o : OptionSpec)
  | unknown

def longOption (specs : List OptionSpec) (t : Text) : Argument :=
  let (name, value) :=
    match Text.cutAtFirst ['='] t with
    | some (name, value) => (name, some value)
    | none => (t, none)
  if name = helpName then if value.isNone then .help else .unknown
  else
    match specs.find? (·.name = name), value with
    | none, _ => .unknown
    | some o, some value => if o.letter.isSome then .complete o value else .unknown
    | some o, none => if o.letter.isSome then .waiting o else .complete o []

def shortOption (specs : List OptionSpec) (c : Char) (rest : Text) : Argument :=
  if c = 'h' then .help
  else
    match specs.find? (·.letter = some c), rest with
    | none, _ => .unknown
    | some o, [] => .waiting o
    | some o, '=' :: value => .complete o value
    | some o, value => .complete o value

def Argument.ofText (specs : List OptionSpec) : Text → Argument
  | ['-', '-'] => .endOfOptions
  | '-' :: '-' :: t => longOption specs t
  | '-' :: c :: rest => shortOption specs c rest
  | t => .operand t

/-- An argument that can be the value of the option before it. -/
def canBeValue : Text → Bool
  | '-' :: _ :: _ => false
  | _ => true

/-! ## Commands -/

/-- The result of reading arguments: help was asked for, or all that was found. -/
inductive Scan where
  | help
  | found (f : Found)

/-- Read the arguments of a command up to their end. -/
def scan (command : CommandSpec) (f : Found) : List Text → Option Scan
  | [] => some (.found f)
  | a :: rest =>
    match Argument.ofText command.options a with
    | .help => some .help
    | .operand t => (f.addOperand? command t).bind fun f => scan command f rest
    | .endOfOptions => (rest.foldlM (fun (f : Found) t => f.addOperand? command t) f).map .found
    | .complete o value => (f.add? o value).bind fun f => scan command f rest
    | .waiting o =>
      match rest with
      | value :: rest =>
        if canBeValue value then (f.add? o value).bind fun f => scan command f rest else none
      | [] => none
    | .unknown => none

def command? (name : Text) (f : Found) : Option Command :=
  let compact := f.has compactOption
  if name = "query".toList then
    match f.operands with
    | [] => none
    | t :: files => some (.query t files.head? compact (f.has ndjsonOption))
  else if name = "explain".toList then f.operands.head?.map .explain
  else if name = "block".toList then
    f.operands.head?.map fun file => .block file (f.value? queryOption) compact
  else
    match f.operands with
    | [] => none
    | t :: files => some (.format t files.head?)

/-- Help for the program, or for the one command that is named. -/
def readHelp : List Text → Option Request
  | [] => some .help
  | [name] =>
    if name = helpName ∨ commands.any (·.name = name) then some .help else none
  | _ => none

/-- Read a command and its arguments. The configuration may be named before or after the command;
after it counts. -/
def readCommand (before : Found) (name : Text) (rest : List Text) : Option Request :=
  if name = helpName then readHelp rest
  else do
    let command ← commands.find? (·.name = name)
    match ← scan command .empty rest with
    | .help => return .help
    | .found f =>
      let command ← command? name f
      return .run ((f.value? configOption).or (before.value? configOption)) command

/-- Read the options in front of the command. -/
def scanRequest (f : Found) : List Text → Option Request
  | [] => none
  | a :: rest =>
    match Argument.ofText [configOption] a with
    | .help => some .help
    | .operand name => readCommand f name rest
    | .complete o value => (f.add? o value).bind fun f => scanRequest f rest
    | .waiting o =>
      match rest with
      | value :: rest =>
        if canBeValue value then (f.add? o value).bind fun f => scanRequest f rest else none
      | [] => none
    | _ => none

/-- What the arguments ask for; `none` is a mistake in their use. -/
def Request.ofArguments (arguments : List Text) : Option Request := scanRequest .empty arguments

end DotQuery.CommandLine
