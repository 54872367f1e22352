import RollupEngine.Config.Environment
import RollupEngine.Logging.Severity
import RollupEngine.Logging.Volume

/-!
# The log

The package's log has one root, and records reach its handlers from the root's own logger and from
the loggers below it. It is set up at most once: by `setup`, or by the first operation that needs
it. A setup installs a file handler if a path is given or the environment names one, and a console
handler always; it may be told to `forget`, after which the next setup starts anew and replaces
the handlers. If the log file cannot be opened the setup fails, the log stays unconfigured and
without handlers, and the next operation tries again.
-/

namespace RollupEngine.Logging

/-- The logger at the root of the package's log. -/
def rootLogger : String := "rollkernel"

/-- Size at which a log file is rotated, in bytes. -/
def maxFileBytes : Nat := 10485760

/-- Rotated log files that are kept. -/
def fileBackups : Nat := 5

/-- Where records go. -/
inductive Handler where
  | file (rank : Int) (place : Location)
  | console (rank : Int)
  deriving DecidableEq, Repr

/-- Records below this rank pass a handler by. -/
def Handler.rank : Handler → Int
  | file r _ | console r => r

/-- A log record. -/
structure LogRecord where
  logger : String
  rank : Int
  message : String
  deriving DecidableEq, Repr

namespace LogRecord

/-- The line of a record in a log file. -/
def fileLine (r : LogRecord) : String :=
  rankName r.rank ++ " " ++ r.logger ++ ": " ++ r.message ++ "\n"

/-- The text of a record on the console. -/
def consoleText (r : LogRecord) : String :=
  r.logger ++ ": " ++ r.message

end LogRecord

/-- The state of the log. -/
structure Log where
  configured : Bool := false
  /-- Records below this rank go nowhere; before the first setup, none does go anywhere. -/
  rootRank : Int := 0
  handlers : List Handler := []
  volume : Volume := {}
  /-- What the console has shown so far. -/
  console : List String := []
  deriving DecidableEq, Repr

/-- An operation on the log. -/
abbrev LogAct (α : Type) := EStateM VolumeError Log α

/-- The variable that names the log file. -/
def pathVariable : String := "ROLLKERNEL_LOG_PATH"

/-- The variable that names the directory of the log file. -/
def directoryVariable : String := "ROLLKERNEL_LOG_DIR"

/-- The value of a variable that is set and not empty. -/
def nonempty? (env : Environment) (name : String) : Option String :=
  (env name).filter fun s => !s.isEmpty

/-- The log file that the environment names. -/
def defaultPath? (env : Environment) : Option String :=
  match nonempty? env pathVariable with
  | some path => some path
  | none => (nonempty? env directoryVariable).map (· ++ "/rollkernel.log")

/-- Whether records of a logger reach the handlers of the root. No component of its name is assumed
to be empty: a logger with such a name, like `rollkernel..kernel`, may miss its parents. -/
def reachesRoot (logger : String) : Bool :=
  logger = rootLogger || (rootLogger ++ ".").toList.isPrefixOf logger.toList

/-- The name of the logger that a name refers to: the nameless one is called `root`. -/
def loggerName (name : String) : String :=
  if name.isEmpty then "root" else name

/-- Show a record to a handler. -/
def Handler.handle (h : Handler) (r : LogRecord) (log : Log) : Log :=
  if h.rank ≤ r.rank then
    match h with
    | .file _ place => { log with volume := log.volume.append place r.fileLine }
    | .console _ => { log with console := log.console ++ [r.consoleText] }
  else log

/-- Deliver a record. -/
def Log.deliver (log : Log) (r : LogRecord) : Log :=
  if reachesRoot r.logger && log.rootRank ≤ r.rank then
    log.handlers.foldl (fun log h => h.handle r log) log
  else log

/-- Open a log file and install its handler. -/
def installFile (path : String) : LogAct Unit := do
  let log ← get
  let (opened, volume) := log.volume.openFile path
  set { log with volume }
  match opened with
  | .ok place =>
    modify fun log =>
      { log with handlers := log.handlers ++ [.file Severity.info.rank place] }
  | .error e => throw e

/-- Set the log up, unless it is. -/
def setup (env : Environment) (path? : Option String := none)
    (consoleRank : Int := Severity.warning.rank) : LogAct Unit := do
  if (← get).configured then return
  modify fun log => { log with rootRank := Severity.debug.rank, handlers := [] }
  match path?.or (defaultPath? env) with
  | some path => installFile path
  | none => pure ()
  modify fun log =>
    { log with handlers := log.handlers ++ [.console consoleRank], configured := true }

/-- The name of the logger under a name, once the log is set up. -/
def loggerFor (env : Environment) (name : String) : LogAct String := do
  setup env
  return loggerName name

/-- Change the rank of the console handlers. -/
def setConsoleRank (env : Environment) (rank : Int) : LogAct Unit := do
  setup env
  modify fun log =>
    { log with handlers := log.handlers.map fun
        | .console _ => .console rank
        | h => h }

/-- Log a record. -/
def emit (env : Environment) (name : String) (rank : Int) (message : String) : LogAct Unit := do
  let logger ← loggerFor env name
  modify (·.deliver { logger, rank, message })

/-- Forget that the log is set up. Its handlers stay in place until the next setup. -/
def forget : LogAct Unit :=
  modify ({ · with configured := false })

/-! ## Runs -/

/-- A use of the log. -/
inductive LogStep where
  | setup (path? : Option String) (consoleRank : Int)
  | loggerFor (name : String)
  | setConsoleRank (rank : Int)
  | emit (name : String) (rank : Int) (message : String)
  | forget
  deriving DecidableEq, Repr

/-- The operation of a step; getting a logger gives its name. -/
def LogStep.act (env : Environment) : LogStep → LogAct (Option String)
  | .setup path? rank => do
    Logging.setup env path? rank
    return none
  | .loggerFor name => do return some (← Logging.loggerFor env name)
  | .setConsoleRank rank => do
    Logging.setConsoleRank env rank
    return none
  | .emit name rank message => do
    Logging.emit env name rank message
    return none
  | .forget => do
    Logging.forget
    return none

/-- The outcome of a step, and the log after it. -/
def LogStep.perform (env : Environment) (step : LogStep) (log : Log) :
    Except VolumeError (Option String) × Log :=
  match step.act env log with
  | .ok a log => (.ok a, log)
  | .error e log => (.error e, log)

/-- The log after a sequence of steps, failures or not. -/
def Log.run (env : Environment) (steps : List LogStep) (log : Log) : Log :=
  steps.foldl (fun log step => (step.perform env log).2) log

end RollupEngine.Logging
