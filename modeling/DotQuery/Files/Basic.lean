import DotQuery.Files.Path

/-!
# Files

A tree of files with a current directory in it. The place of a file is the list of steps that lead
to it from the root. A path is followed step by step, from the root or from the current directory.
-/

namespace DotQuery

inductive FileError where
  | notFound
  | notADirectory
  | isADirectory
  | alreadyThere
  | notText
deriving DecidableEq

namespace FileError

def message : FileError → Text
  | notFound => "No such file or directory (os error 2)".toList
  | notADirectory => "Not a directory (os error 20)".toList
  | isADirectory => "Is a directory (os error 21)".toList
  | alreadyThere => "File exists (os error 17)".toList
  | notText => "stream did not contain valid UTF-8".toList

end FileError

/-- Files hold text or other bytes. -/
inductive Content where
  | text (t : Text)
  | bytes
deriving DecidableEq

inductive FileNode where
  | file (c : Content)
  | directory

/-- The contents of files by their places, the directories that were made, and the current
directory. All directories above any of these are there as well. -/
structure Files where
  entries : List (List Text × Content)
  directories : List (List Text)
  current : List Text

namespace Files

/-- The place of a path without `.` and `..`, seen from the current directory. -/
def placeFrom (current : List Text) (path : Text) : List Text :=
  if FilePath.isAbsolute path then (Text.splitOn '/' path).tail
  else current ++ Text.splitOn '/' path

/-- Files by their paths, seen from a directory below the root. -/
def ofList (files : List (Text × Content)) : Files :=
  let current := ["home".toList]
  ⟨files.map fun (path, c) => (placeFrom current path, c), [], current⟩

/-- A directory that was made, or one above a file or above such a directory. -/
def isDirectory (files : Files) (place : List Text) : Bool :=
  files.directories.any place.isPrefixOf || files.entries.any fun (p, _) => place.isPrefixOf p

/-- What is at a place. Nothing but directories leads to the current directory. -/
def node? (files : Files) (place : List Text) : Option FileNode :=
  if place.isPrefixOf files.current then some .directory
  else
    match files.entries.lookup place with
    | some c => some (.file c)
    | none => if files.isDirectory place then some .directory else none

/-- The place that some steps lead to. The root is its own upper directory. -/
def follow (files : Files) (place : List Text) : List Text → Except FileError (List Text)
  | [] => .ok place
  | step :: steps =>
    match files.node? place with
    | none => .error .notFound
    | some (.file _) => .error .notADirectory
    | some .directory =>
      if FilePath.isIdle step then files.follow place steps
      else if step = "..".toList then files.follow place.dropLast steps
      else
        match files.node? (place ++ [step]) with
        | some _ => files.follow (place ++ [step]) steps
        | none => .error .notFound

/-- Where the steps of a path start. -/
def start (files : Files) (path : Text) : List Text :=
  if FilePath.isAbsolute path then [] else files.current

/-- The place of a path, where the empty path is the current directory. -/
def placeOf (files : Files) (path : Text) : Except FileError (List Text) :=
  files.follow (files.start path) (Text.splitOn '/' path)

/-- The place of something that must be there. -/
def locate (files : Files) (path : Text) : Except FileError (List Text) :=
  if path = [] then .error .notFound else files.placeOf path

def read (files : Files) (path : Text) : Except FileError Text := do
  match files.node? (← files.locate path) with
  | some (.file (.text t)) => return t
  | some (.file .bytes) => throw .notText
  | some .directory => throw .isADirectory
  | none => throw .notFound

/-! ## Writing -/

/-- Make the missing directories on the way along some steps. A file on the way is no directory;
once a directory had to be made, it is in the way of another one. -/
def makeAlong (files : Files) (made : Bool) (place : List Text) :
    List Text → Except FileError Files
  | [] => .ok files
  | step :: steps =>
    if step = "..".toList then files.makeAlong made place.dropLast steps
    else
      let next := place ++ [step]
      match files.node? next with
      | some .directory => files.makeAlong made next steps
      | some (.file _) => .error (if made || steps == [] then .alreadyThere else .notADirectory)
      | none => makeAlong { files with directories := next :: files.directories } true next steps

/-- Make a directory and those above it, as far as they are missing. -/
def makeDirectories (files : Files) (path : Text) : Except FileError Files :=
  files.makeAlong false (files.start path)
    ((Text.splitOn '/' path).filter fun step => !FilePath.isIdle step)

def putAt (place : List Text) (c : Content) :
    List (List Text × Content) → List (List Text × Content)
  | [] => [(place, c)]
  | (p, d) :: es => if p = place then (p, c) :: es else (p, d) :: putAt place c es

/-- Add text to a file of a directory; the file is made if it is not there. -/
def append (files : Files) (directory name t : Text) : Except FileError Files := do
  let place := (← files.placeOf directory) ++ [name]
  match files.node? place with
  | some .directory => throw .isADirectory
  | some (.file (.text old)) =>
    return { files with entries := putAt place (.text (old ++ t)) files.entries }
  | some (.file .bytes) => return files
  | none => return { files with entries := putAt place (.text t) files.entries }

end Files

end DotQuery
