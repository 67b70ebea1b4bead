import DotQuery.CommandLine.Arguments
import DotQuery.Config
import DotQuery.Log.Filter
import DotQuery.Log.Line
import DotQuery.Report

/-!
# Running a command

A run reads the configuration, opens the log, and carries out the command. `Outcome` is all that can
be seen of it. Nothing is logged of what fails before the log is open.
-/

namespace DotQuery.CommandLine

/-- What a run takes from around it. -/
structure Environment where
  /-- A log filter that replaces the one of the configuration. -/
  logFilter : Option Text
  /-- Whether log lines on the standard error output are colored. -/
  colorLog : Bool
  /-- Whether explanations are colored. -/
  colorOutput : Bool

/-- A log file as its directory and its name. -/
structure LogFile where
  directory : Text
  name : Text

def LogFile.path (f : LogFile) : Text := FilePath.join f.directory f.name

/-- The log of a run: lines on the standard error output, and perhaps the same in a file. -/
structure LogTarget where
  format : LogFormat
  filter : Log.Filter
  file : Option LogFile

structure Outcome where
  report : Report
  log : Option LogTarget

/-! ## Configuration -/

/-- The configuration and the directory that its paths are seen from. -/
def loadConfig : Option Text → Loading (Config × Text)
  | none => return (.default, [])
  | some path => do
    let directory ← ExceptT.mk <|
      .findDirectory path fun r =>
        .done (r.mapError fun e =>
          .ofCause (.other ("config path '".toList ++ path ++ "': ".toList ++ e.message)))
    let t ← ExceptT.mk <|
      .readFile path fun r =>
        .done (r.mapError fun e =>
          .ofCause (.other ("failed to read ".toList ++ path ++ ": ".toList ++ e.message)))
    let config ← Loading.ofExcept (Config.parse t)
    return (config, directory)

def logFilter (env : Environment) (logging : Config.Logging) : Except Failure Log.Filter :=
  match env.logFilter with
  | some t => .ok (.parseLossy t)
  | none =>
    (Log.Filter.parse logging.directives).mapError fun e =>
      .ofCause (.other ("invalid log filter '".toList ++ logging.directives ++ "': ".toList ++
        e.message))

/-- A step in making a log file. -/
def logFileStep (r : Except FileError Unit) : Load (Except Failure Unit) :=
  .done (r.mapError fun e => .ofCause (.other e.message))

/-- Make the log file of a configuration in a directory. Its own directory is made first. -/
def makeLogFile (directory : Text) : Option Text → Loading (Option LogFile)
  | none => return none
  | some file => do
    let path := FilePath.join directory file
    match FilePath.parent? path with
    | none => Loading.fail (.ofCause (.other "log file path has no parent directory".toList))
    | some above =>
      ExceptT.mk (.makeDirectory above logFileStep)
      match FilePath.name? path with
      | none => Loading.fail (.ofCause (.other "log file path has no file name".toList))
      | some name =>
        ExceptT.mk (.makeFile above name logFileStep)
        return some ⟨above, name⟩

def openLog (env : Environment) (config : Config) (directory : Text) : Loading LogTarget := do
  let filter ← Loading.ofExcept (logFilter env config.logging)
  let file ← makeLogFile directory config.logging.file
  return ⟨config.logging.format, filter, file⟩

/-! ## Commands -/

/-- The report of a task, or of its failure. -/
def reportOf {α : Type} (task : Loading α) (f : α → Report) : Load Report := do
  match ← task.run with
  | .ok a => return f a
  | .error e => return .ofFailure e

def eventReport (e : Event) : Report := ⟨[], [e], none⟩

def reportLines (q : Query) (path : Text) (documents : List Value) : Report :=
  (eventReport (.documentsLoaded documents.length path)).andThen (q.reportMany documents)

def carryOutQuery (q : Query) (path : Text) (output : Config.Output) : Load Report :=
  if output.ndjson then
    reportOf (do Loading.ofExcept (documentsOfLines (← readSource path))) (reportLines q path)
  else reportOf (loadJson path) fun v => (q.execute v).report output.pretty []

def carryOut (env : Environment) (output : Config.Output) : Command → Load Report
  | .query t file compact ndjson =>
    match Query.compile t with
    | .error e => .done (.ofFailure (.ofCause (.compile e)))
    | .ok q =>
      carryOutQuery q (file.getD stdinPath)
        ⟨output.pretty && !compact, output.ndjson || ndjson⟩
  | .explain t =>
    match Query.compile t with
    | .error e => .done (.ofFailure (.ofCause (.compile e)))
    | .ok q => .done (q.explain (if env.colorOutput then .colored else .plain)).report
  | .block file query compact =>
    reportOf (loadBlock file) fun b =>
      (eventReport (.blockLoaded b.block.id file)).andThen
        (b.report query (output.pretty && !compact))
  | .format template file => reportOf (loadJson (file.getD stdinPath)) (reportTemplate template)

/-! ## Runs -/

/-- A failed command is reported in the log as well. -/
def logFailure (r : Report) : Report :=
  match r.failure with
  | some f => { r with events := r.events ++ [.commandFailed f.message] }
  | none => r

def start (env : Environment) (config : Option Text) : Loading (Config × LogTarget) := do
  let (c, directory) ← loadConfig config
  let log ← openLog env c directory
  return (c, log)

def run (env : Environment) (config : Option Text) (command : Command) : Load Outcome := do
  match ← (start env config).run with
  | .error f => return ⟨.ofFailure f, none⟩
  | .ok (c, log) => do
    let loaded := config.toList.map Event.configurationLoaded
    let r ← carryOut env c.output command
    return ⟨logFailure { r with events := loaded ++ r.events }, some log⟩

namespace Outcome

def exitCode (o : Outcome) : Nat := if o.report.failure.isSome then 1 else 0

/-- The first line of the outermost text of a failure. -/
def headline (o : Outcome) : Option Text :=
  o.report.failure.map fun f => ((f.chain.head?.getD []).lines.head?).getD []

def linesWith (o : Outcome) (color : Bool) (time : Text) : List Text :=
  match o.log with
  | none => []
  | some log =>
    (o.report.events.filter log.filter.logs).map
      (match log.format with
      | .plain => Log.plainLine color time
      | .json => Log.jsonLine time)

/-- The log lines on the standard error output. -/
def logLines (o : Outcome) (env : Environment) (time : Text) : List Text :=
  o.linesWith env.colorLog time

/-- The log file and the text that is added to it, which is never colored. -/
def logFile (o : Outcome) (time : Text) : Option (LogFile × Text) :=
  (o.log.bind LogTarget.file).map fun file =>
    (file, (o.linesWith false time).flatMap fun l => l ++ ['\n'])

/-- The files after a run. -/
def filesAfter (o : Outcome) (time : Text) (files : Files) : Files :=
  match o.logFile time with
  | none => files
  | some (file, t) => ((files.append file.directory file.name t).toOption).getD files

end Outcome

end DotQuery.CommandLine
