import DotQuery.CommandLine.Run
import Std.Time

/-!
# The program

Reads the arguments and the environment, carries out what `CommandLine.run` asks for, and writes its
outcome.
-/

namespace DotQuery

def fileError : IO.Error → FileError
  | .noFileOrDirectory .. => .notFound
  | .alreadyExists .. => .alreadyThere
  | .inappropriateType _ code _ => if code = 21 then .isADirectory else .notADirectory
  | _ => .notFound

/-- Do something with files. -/
def attempt {α : Type} (action : IO α) : IO (Except FileError α) := do
  match ← action.toBaseIO with
  | .ok a => return .ok a
  | .error e => return .error (fileError e)

def readText (path : Text) : IO (Except FileError Text) := do
  match ← attempt (IO.FS.readBinFile (String.ofList path)) with
  | .error e => return .error e
  | .ok bytes =>
    match String.fromUTF8? bytes with
    | some s => return .ok s.toList
    | none => return .error .notText

def readInput : IO Text := do
  let bytes ← (← IO.getStdin).readBinToEnd
  return ((String.fromUTF8? bytes).map String.toList).getD []

def directoryOf (path : Text) : IO Text := do
  let place ← IO.FS.realPath (String.ofList path)
  return (FilePath.parent? place.toString.toList).getD []

def createDirectory (path : Text) : IO Unit := do
  if path ≠ [] then IO.FS.createDirAll (String.ofList path)

def touch (path : Text) : IO Unit := do
  let _ ← IO.FS.Handle.mk (String.ofList path) .append

def Load.perform {α : Type} : Load α → IO α
  | .done a => return a
  | .readFile path next => do (next (← readText path)).perform
  | .readStdin next => do (next (← readInput)).perform
  | .findDirectory path next => do (next (← attempt (directoryOf path))).perform
  | .makeDirectory path next => do (next (← attempt (createDirectory path))).perform
  | .makeFile directory name next => do
    (next (← attempt (touch (FilePath.join directory name)))).perform

/-- The time now, in universal time up to microseconds. -/
def timeText : IO Text := do
  let stamp ← Std.Time.Timestamp.now
  let now := Std.Time.DateTime.ofTimestamp stamp Std.Time.TimeZone.ZoneRules.UTC
  return (now.format "uuuu-MM-dd'T'HH:mm:ss.SSSSSS'Z'").toList

def writeOutcome (env : CommandLine.Environment) (o : CommandLine.Outcome) : IO UInt32 := do
  let time ← timeText
  let err ← IO.getStderr
  (← IO.getStdout).putStr (String.ofList o.report.out)
  for l in o.logLines env time do
    err.putStrLn (String.ofList l)
  if let some (file, lines) := o.logFile time then
    let h ← IO.FS.Handle.mk (String.ofList file.path) .append
    h.putStr (String.ofList lines)
  if let some f := o.report.failure then
    err.putStrLn (String.ofList f.explanation)
  return o.exitCode.toUInt32

def usage : String :=
  "Usage: qj [--config PATH] query QUERY [FILE] [--compact] [--ndjson]\n" ++
  "       qj [--config PATH] explain QUERY\n" ++
  "       qj [--config PATH] block FILE [--query QUERY] [--compact]\n" ++
  "       qj [--config PATH] format TEMPLATE [FILE]"

end DotQuery

open DotQuery in
def main (arguments : List String) : IO UInt32 := do
  match CommandLine.Request.ofArguments (arguments.map String.toList) with
  | none =>
    (← IO.getStderr).putStrLn usage
    return 2
  | some .help =>
    (← IO.getStdout).putStrLn usage
    return 0
  | some (.run config command) =>
    let noColor ← IO.getEnv "NO_COLOR"
    let env : CommandLine.Environment :=
      { logFilter := (← IO.getEnv "RUST_LOG").map String.toList
        colorLog := noColor.all String.isEmpty
        colorOutput := ← (← IO.getStdout).isTty }
    writeOutcome env (← (CommandLine.run env config command).perform)
