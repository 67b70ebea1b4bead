import DotQuery.Text.Basic

/-!
# File paths

Paths are texts with `/` between their steps. `parent?` is a path without its last step, `name?`
that step, `join` a path seen from a directory. Empty steps and `.` count for nothing, except that a
path that starts with `.` keeps it.
-/

namespace DotQuery.FilePath

def isAbsolute (path : Text) : Bool := path.head? == some '/'

/-- What a path starts from (the root, the current directory by name, or nothing) and the rest. -/
def cutAnchor : Text → Text × Text
  | '/' :: t => (['/'], t)
  | ['.'] => (['.'], [])
  | '.' :: '/' :: t => (['.'], '/' :: t)
  | t => ([], t)

def isIdle (step : Text) : Bool := step == [] || step == ['.']

/-- Steps without the idle ones at the end. -/
def dropIdleEnd (steps : List Text) : List Text := (steps.reverse.dropWhile isIdle).reverse

/-- The directory part; the root and the empty path have none. -/
def parent? (path : Text) : Option Text :=
  let (anchor, rest) := cutAnchor path
  match dropIdleEnd (Text.splitOn '/' rest) with
  | [] => if anchor = ['.'] then some [] else none
  | steps => some (anchor ++ Text.joinWith ['/'] (dropIdleEnd steps.dropLast))

/-- The last step; going up is no name. -/
def name? (path : Text) : Option Text :=
  (dropIdleEnd (Text.splitOn '/' (cutAnchor path).2)).getLast?.filter (· ≠ "..".toList)

/-- A path seen from a directory; an absolute path stands for itself. -/
def join (directory path : Text) : Text :=
  if isAbsolute path || directory = [] then path
  else if directory.getLast? = some '/' then directory ++ path
  else directory ++ '/' :: path

end DotQuery.FilePath
