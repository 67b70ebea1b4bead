import DotQuery.Event
import DotQuery.Json.Path
import DotQuery.Log.Pattern

/-!
# Log filters

A filter is a text of directives between commas: a level for everything, or `target=level` for the
targets that begin with a name. The longest name that fits an event decides; if none fits, the event
is not logged.
-/

namespace DotQuery.Log

/-- The largest rank of the levels that are logged; 0 is none. -/
abbrev Limit := Nat

def errorOnly : Limit := Level.error.rank

def everything : Limit := Level.trace.rank

inductive FilterError where
  | badDirective
  | badPattern
  | badLevel
deriving DecidableEq

def FilterError.message : FilterError → Text
  | badDirective => "invalid filter directive".toList
  | badPattern => "invalid field filter: error building NFA".toList
  | badLevel =>
    ("error parsing level filter: expected one of \"off\", \"error\", \"warn\", \"info\", " ++
      "\"debug\", \"trace\", or a number 0-5").toList

/-- What is logged of the events whose target begins with a name and which have a detail. -/
structure Directive where
  target : Option Text
  detail : Option Text
  limit : Limit
deriving DecidableEq

namespace Directive

/-! ## Reading

The places in a directive are counted without the blanks in front of it, but what stands there is
read from the directive as it was written. So a blank at an end spoils every level, and one in front
every target as well.
-/

def limitNames : List (Text × Limit) :=
  [("off".toList, 0), ("error".toList, 1), ("warn".toList, 2), ("info".toList, 3),
    ("debug".toList, 4), ("trace".toList, 5)]

def limit? (t : Text) : Option Limit :=
  match (placeOfStep? t).filter (· ≤ everything) with
  | some n => some n
  | none => (limitNames.find? fun (name, _) => t.eqIgnoreCase name).map Prod.snd

/-- A character that a directive can start with. -/
def canStart (c : Char) : Bool :=
  isAlphanumeric c || c == '-' || c == ':' || c == '_' || c == '['

/-- A level after a target; no level is the most talkative one. -/
def limitAfter (t : Text) : Except FilterError Limit :=
  if t = [] then .ok everything
  else
    match limit? t with
    | some n => .ok n
    | none => .error .badLevel

/-- A word alone is a level, or else a target of which everything is logged. -/
def ofWord (t : Text) : Directive :=
  match limit? t with
  | some n => ⟨none, none, n⟩
  | none => ⟨some t, none, everything⟩

/-- A name, and the value that is asked for. What follows a second equals sign is not read. -/
def parseDetail (t : Text) : Except FilterError (Text × Option Text) :=
  match t.splitOn '=' with
  | name :: value :: _ =>
    if Pattern.isValue value then .ok (name, some value) else .error .badPattern
  | _ => if t = [] then .error .badDirective else .ok (t, none)

/-- The level behind a closing bracket, at a place of the directive `t` with `rest` to follow. -/
def limitAfterBracket (t : Text) (place : Nat) : Text → Except FilterError Limit
  | [] => .ok everything
  | '=' :: _ => limitAfter (t.drop (place + 1))
  | _ => .error .badDirective

/-- Read what follows an opening bracket of the directive `t`: from a place on, the name of a span
or a detail between braces. A directive about spans or about the value of a detail counts for no
event. -/
def parseBracket (t : Text) (target : Option Text) (place : Nat) (rest : Text) :
    Except FilterError (Option Directive) :=
  let isEnd (c : Char) : Bool := c == ']' || c == '\x7b'
  let span := rest.takeWhile fun c => !isEnd c
  let place := place + span.length + 1
  match rest.dropWhile fun c => !isEnd c with
  | ']' :: rest => (limitAfterBracket t place rest).map fun _ => none
  | '\x7b' :: rest => do
    let (inside, rest) ← ((Text.cutAtFirst ['\x7d'] rest).elim (.error .badDirective) .ok)
    let (name, value) ← parseDetail ((t.drop place).take inside.length)
    match rest with
    | ']' :: rest =>
      (limitAfterBracket t (place + inside.length + 2) rest).map fun limit =>
        if span = [] ∧ value = none then some ⟨target, some name, limit⟩ else none
    | _ => .error .badDirective
  | _ => .error .badDirective

/-- Read a directive. -/
def parse (t : Text) : Except FilterError (Option Directive) :=
  let isEnd (c : Char) : Bool := c == '=' || c == '['
  let size := (t.trim.takeWhile fun c => !isEnd c).length
  let word := t.take size
  if t.trim.head?.all fun c => !canStart c then .error .badDirective
  else
    match t.trim.dropWhile fun c => !isEnd c with
    | '=' :: _ => (limitAfter (t.drop (size + 1))).map fun limit => some ⟨some word, none, limit⟩
    | '[' :: rest => parseBracket t (if word = [] then none else some word) (size + 1) rest
    | _ => .ok (some (ofWord t))

/-! ## Deciding -/

def fits (d : Directive) (e : Event) : Bool :=
  d.target.all (·.isPrefixOf e.target) && d.detail.all e.detailNames.contains

/-- How exactly a directive names its targets. -/
def precision (d : Directive) : Nat := d.target.elim 0 fun name => name.length + 1

/-- A directive gives way to one that names its targets more exactly, and among equals to one whose
detail comes after its own in a dictionary, where no detail comes first. -/
def givesWayTo (d e : Directive) : Bool :=
  d.precision < e.precision ||
    d.precision == e.precision && Text.precedes (d.detail.getD []) (e.detail.getD [])

end Directive

structure Filter where
  directives : List Directive
deriving DecidableEq

namespace Filter

/-- A filter without any directive logs errors. -/
def ofDirectives (found : List (Option Directive)) : Filter :=
  ⟨if found = [] then [⟨none, none, errorOnly⟩] else found.filterMap id⟩

/-- What stands between the commas of a filter; nothing between two of them is no directive. -/
def pieces (t : Text) : List Text := (t.splitOn ',').filter (· ≠ [])

def parse (t : Text) : Except FilterError Filter :=
  ((pieces t).mapM Directive.parse).map ofDirectives

/-- The directives that can be read; the others are left out. -/
def parseLossy (t : Text) : Filter :=
  ofDirectives ((pieces t).filterMap fun d => (Directive.parse d).toOption)

/-- Of the directives that fit, the one that all others give way to, and of equals the last. -/
def decisive? (f : Filter) (e : Event) : Option Directive :=
  f.directives.foldl (fun best d =>
    if d.fits e && best.all (·.givesWayTo d) then some d else best) none

def logs (f : Filter) (e : Event) : Bool :=
  (f.decisive? e).any fun d => e.level.rank ≤ d.limit

end Filter

end DotQuery.Log
