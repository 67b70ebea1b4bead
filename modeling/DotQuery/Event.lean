import DotQuery.Json.Value
import DotQuery.Text.Numeral

/-!
# Events

What the program reports about its own work. Each event has a level, the part of the program that it
comes from, a domain, a message and named details in a fixed order.
-/

namespace DotQuery

inductive Level where
  | error
  | warn
  | info
  | debug
  | trace
deriving DecidableEq

namespace Level

/-- Higher is more talkative. -/
def rank : Level → Nat
  | error => 1
  | warn => 2
  | info => 3
  | debug => 4
  | trace => 5

def name : Level → Text
  | error => "ERROR".toList
  | warn => "WARN".toList
  | info => "INFO".toList
  | debug => "DEBUG".toList
  | trace => "TRACE".toList

end Level

inductive Event where
  /-- A segment is about to be applied to a value. -/
  | segmentApplied (position : Nat) (segment : Text) (input : Kind)
  /-- A predicate was parsed while its query ran. -/
  | predicateParsed (position : Nat) (source : Text) (terms : Nat)
  | predicateRejected (position : Nat) (error : Text)
  | nothingFound
  | configurationLoaded (path : Text)
  | documentsLoaded (documents : Nat) (source : Text)
  | blockLoaded (id : Nat) (source : Text)
  | commandFailed (error : Text)
deriving DecidableEq

/-- A detail is a number, a text shown between quotes, or a text shown as it is. -/
inductive Detail where
  | number (n : Nat)
  | quoted (t : Text)
  | plain (t : Text)

namespace Event

def level : Event → Level
  | segmentApplied .. => .trace
  | predicateParsed .. => .debug
  | predicateRejected .. => .warn
  | nothingFound => .debug
  | configurationLoaded _ => .info
  | documentsLoaded .. => .info
  | blockLoaded .. => .info
  | commandFailed _ => .error

/-- The name under which a log filter knows the part of the program. -/
def target : Event → Text
  | segmentApplied .. => "qj_core::executor".toList
  | predicateParsed .. => "qj_core::executor".toList
  | predicateRejected .. => "qj_cli::cmd_explain".toList
  | nothingFound => "qj_cli::cmd_query".toList
  | configurationLoaded _ => "qj".toList
  | documentsLoaded .. => "qj_cli::cmd_query".toList
  | blockLoaded .. => "qj_cli::cmd_block".toList
  | commandFailed _ => "qj".toList

def domain : Event → Text
  | segmentApplied .. => "pipe".toList
  | predicateParsed .. => "pipe".toList
  | predicateRejected .. => "pipe".toList
  | nothingFound => "pipe".toList
  | configurationLoaded _ => "conf".toList
  | documentsLoaded .. => "io".toList
  | blockLoaded .. => "io".toList
  | commandFailed _ => "sys".toList

def message : Event → Text
  | segmentApplied .. => "apply segment".toList
  | predicateParsed .. => "filter predicate parsed".toList
  | predicateRejected .. => "filter predicate does not parse".toList
  | nothingFound => "query produced no value".toList
  | configurationLoaded _ => "configuration loaded".toList
  | documentsLoaded .. => "ndjson input loaded".toList
  | blockLoaded .. => "block loaded".toList
  | commandFailed _ => "command failed".toList

def details : Event → List (Text × Detail)
  | segmentApplied position segment input =>
    [("position".toList, .number position), ("kind".toList, .quoted segment),
      ("input".toList, .quoted input.name)]
  | predicateParsed position source terms =>
    [("position".toList, .number position), ("predicate".toList, .quoted source),
      ("terms".toList, .number terms)]
  | predicateRejected position error =>
    [("position".toList, .number position), ("error".toList, .plain error)]
  | nothingFound => []
  | configurationLoaded path => [("config".toList, .plain path)]
  | documentsLoaded documents source =>
    [("documents".toList, .number documents), ("source".toList, .plain source)]
  | blockLoaded id source => [("block".toList, .number id), ("source".toList, .plain source)]
  | commandFailed error => [("error".toList, .plain error)]

/-- The names of all that an event carries. -/
def detailNames (e : Event) : List Text :=
  "message".toList :: "domain".toList :: e.details.map Prod.fst

end Event

end DotQuery
