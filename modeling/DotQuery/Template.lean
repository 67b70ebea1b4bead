import DotQuery.Json.Printer

/-!
# Templates

A placeholder is a name between braces: an opening brace, one or more characters other than a
closing brace, and a closing brace. It is replaced by the field of that name in a document, or stays
as it is where there is none.
-/

namespace DotQuery

/-- A value as the output of the program: strings without quotes, all else as JSON. -/
def Value.output (pretty : Bool) : Value → Text
  | .string t => t
  | v => if pretty then v.pretty else v.compact

namespace Template

def placeholder (name : Text) : Text := '\x7b' :: name ++ ['\x7d']

def fillPlaceholder (document : Value) (name : Text) : Text :=
  match document.get? name with
  | some v => v.output true
  | none => placeholder name

mutual

/-- Fill a text that starts outside placeholders. -/
def fill (document : Value) : Text → Text
  | [] => []
  | c :: t => if c = '\x7b' then fillOpen document [] t else c :: fill document t

/-- Fill a text that starts inside a placeholder, after the characters `name` of its name, the last
one first. -/
def fillOpen (document : Value) (name : Text) : Text → Text
  | [] => '\x7b' :: name.reverse
  | c :: t =>
    if c = '\x7d' then
      (if name = [] then placeholder [] else fillPlaceholder document name.reverse) ++
        fill document t
    else fillOpen document (c :: name) t

end

end Template

end DotQuery
