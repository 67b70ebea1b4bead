import DotQuery.Event
import DotQuery.Json.Printer
import DotQuery.Text.Quoted

/-!
# Log lines

An event as a line for reading, colored or not, or as a JSON object. The time is given.
-/

namespace DotQuery.Log

def colorCode : Level → Text
  | .error => "31".toList
  | .warn => "33".toList
  | .info => "32".toList
  | .debug => "34".toList
  | .trace => "35".toList

def paint (color : Bool) (code t : Text) : Text :=
  if color then '\x1b' :: '[' :: code ++ 'm' :: t ++ "\x1b[0m".toList else t

def detailText : Text × Detail → Text
  | (name, .number n) => name ++ '=' :: Text.ofNat n
  | (name, .quoted t) => name ++ '=' :: t.quoted
  | (name, .plain t) => name ++ '=' :: t

def plainLine (color : Bool) (time : Text) (e : Event) : Text :=
  let details := Text.joinWith [' '] (e.details.map detailText)
  paint color ['2'] time ++
    ' ' :: paint color (colorCode e.level) (Text.padLeft 5 e.level.name) ++
    ' ' :: paint color "1;36".toList ('[' :: e.domain ++ [']']) ++
    ' ' :: e.message ++
    if details = [] then [] else ' ' :: paint color ['3'] details

def detailValue : Detail → Value
  | .number n => .number (.whole n)
  | .quoted t => .string t
  | .plain t => .string t

def jsonLine (time : Text) (e : Event) : Text :=
  let field (name : String) (v : Value) : Text × Value := (name.toList, v)
  let fields :=
    field "message" (.string e.message) :: field "domain" (.string e.domain) ::
      e.details.map fun (name, d) => (name, detailValue d)
  Value.compact <| .object
    [field "timestamp" (.string time), field "level" (.string e.level.name),
      field "fields" (.object fields)]

end DotQuery.Log
