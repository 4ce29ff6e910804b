import ChainMigration.Cli.Arguments
import ChainMigration.Cli.Log
import ChainMigration.Cli.Printed
import ChainMigration.Config.Validate
import ChainMigration.Database.Endpoints
import ChainMigration.Run.Schedule
import ChainMigration.Run.Transfer

/-! # The program

What the program does with its command line: it loads the configuration, opens the log, lays
settings of the command line over the configuration, connects to the databases and runs its command.
It reads and writes a tree of files, executes statements and writes two streams of text; the clock,
the databases and a signal that may arrive are given to it. `Program.run` is the whole program. -/

namespace ChainMigration

/-- A signal that asks the program to stop. -/
inductive Signal
  | interrupt
  | terminate
deriving DecidableEq

/-- The name of a signal. -/
def Signal.name : Signal → String
  | .interrupt => "SIGINT"
  | .terminate => "SIGTERM"

/-- A signal that arrives while the old database is busy with a read. -/
structure Interruption where
  signal : Signal
  table : Table
  /-- The parameters of the read. -/
  parameters : Option (Int64 × Int64)
  /-- How long after the signal the read is answered, in milliseconds. -/
  delay : Nat

/-- The signal arrives during the read of a range of a table. -/
def Interruption.strikes (i : Interruption) (t : Table) (range : BlockRange) : Bool :=
  t = i.table && (readParameters t range).toOption = some i.parameters

/-- What the program finds around it, its command line and its files apart. -/
structure Surroundings where
  environment : Environment
  server : Server
  interruption : Option Interruption
  runId : RunId
  startedAt : Timestamp
  completedAt : Timestamp
  /-- How long the databases take to answer. -/
  latencies : HealthReport

/-- What the program has done so far. -/
structure ProgramState where
  files : FileTree
  log : Log := ⟨.info, false, none⟩
  executed : List Executed := []
  output : String := ""
  diagnostics : String := ""

/-- Work of the program. What it did before an error stays done. -/
abbrev ProgramWork := ReaderT Surroundings (ExceptT MigrationError (StateM ProgramState))

namespace Program

/-- Writes to the standard output. -/
def print (text : String) : ProgramWork Unit :=
  modify fun s => { s with output := s.output ++ text }

/-- Writes to the standard error. -/
def complain (text : String) : ProgramWork Unit :=
  modify fun s => { s with diagnostics := s.diagnostics ++ text }

/-- Writes an entry to the log. -/
def note (entry : LogEntry) : ProgramWork Unit := do
  let s ← get
  if s.log.shows entry then
    let line := s.log.line (← read).startedAt entry
    match s.log.place with
    | some place => set { s with files := s.files.append place line }
    | none => complain line

/-- Works with the databases. -/
def onDatabases {α : Type} (w : DatabaseWork MigrationError α) : ProgramWork α := do
  modify fun s => { s with executed := s.executed ++ w.statements }
  MonadExcept.ofExcept w.result

/-- Connects to a database. That any certificate will do is worth a warning. -/
def connect (db : DatabaseConfig) (role : String) : ProgramWork Connection := do
  if (SslMode.ofText db.sslMode).toOption = some .require then
    note ⟨.warn, s!"the certificate of the {role} database is not checked"⟩
  let c ← onDatabases (Connection.connect (← read).server db role)
  note ⟨.info, s!"connected to the {role} database {db.target}"⟩
  return c

/-- Connects to the old database and then to the new one. -/
def connectBoth (c : Config) : ProgramWork Databases := do
  let old ← connect c.old "old"
  let new ← connect c.new "new"
  return ⟨old, new⟩

/-- Keeps the statements of acts and logs the acts. -/
def follow (db : Databases) (acts : List Act) : ProgramWork Unit := do
  modify fun s => { s with executed := s.executed ++ acts.flatMap db.statements }
  acts.forM fun act => note act.entry

/-- Opens the log. The command line decides before the configuration. -/
def openLog (a : Arguments) (c : Config) : ProgramWork Unit := do
  let level := LogLevel.ofVerbosity ((a.verbosity.or c.log.level).getD "info")
  let json := a.logFormat = "json"
  match a.logFile.or c.log.file with
  | none => modify fun s => { s with log := ⟨level, json, none⟩ }
  | some path =>
    let (opened, files) := (FileTree.openToAppend path).run.run (← get).files
    modify fun s => { s with files }
    match opened with
    | .ok place => modify fun s => { s with log := ⟨level, json, some place⟩ }
    | .error reason => throw (.file reason)

/-- Prints the report of a run and tells the exit status. -/
def finish (a : Arguments) (r : RunReport) (cancelled : Bool) : ProgramWork Nat := do
  let r := r.finish cancelled (← read).completedAt
  print (if a.outputJson then r.json.pretty ++ "\n" else textOfLines r.lines)
  return r.exitCode

/-- The ranges of a run. -/
def plan (db : Databases) (c : Config) : ProgramWork (List BlockRange) := do
  if c.asksBounds then
    modify fun s => { s with executed := s.executed ++ db.old.heightBounds.statements }
  MonadExcept.ofExcept (c.plan db.endpoints.bounds)

/-- Replies that leave the read open during which a signal arrives. -/
def repliesUntil (i : Option Interruption) (replies : Replies) : Replies :=
  { replies with
    rows := fun pool worker t range =>
      if i.any (·.strikes t range) then none else replies.rows pool worker t range }

/-- Lets a run go on and keeps what it does. -/
def advance (db : Databases) (replies : Replies) (r : MigrationRun) : ProgramWork MigrationRun := do
  let (r, acts) := r.settle replies []
  modify fun s => { s with files := r.files }
  follow db acts.reverse
  return r

/-- Migrates tables. After a signal the engine is closed, and the program waits for its workers as
long as the command line allows. The result tells whether a signal arrived. -/
def migrateUntilStopped (a : Arguments) (db : Databases) (r : MigrationRun) :
    ProgramWork (List TableReport × Bool) := do
  let i := (← read).interruption
  let r ← advance db (repliesUntil i db.endpoints.replies) r
  match i with
  | some i =>
    if r.isOver then return (← MonadExcept.ofExcept r.result, false)
    else
      complain s!"\nReceived {i.signal.name}. Stopping workers...\n"
      if a.shutdownTimeout * 1000 < i.delay then
        complain s!"Workers did not stop within {a.shutdownTimeout}s\n"
        throw .cancelled
      let r ← advance db db.endpoints.replies { r with engine := r.engine.close }
      return (← MonadExcept.ofExcept r.result, true)
  | none => return (← MonadExcept.ofExcept r.result, false)

/-- Runs a migration. -/
def migrate (a : Arguments) (c : Config) : ProgramWork Nat := do
  let around ← read
  MonadExcept.ofExcept c.validate
  let tables ← MonadExcept.ofExcept c.migration.tableNames
  if tables.isEmpty then throw (.config .noTables)
  let policy ← MonadExcept.ofExcept c.policy
  let db ← connectBoth c
  let ranges ← plan db c
  note ⟨.info, s!"migrating {tables.length} tables over {ranges.length} ranges"⟩
  let setting : RunSetting := ⟨ranges, c.log.readGapsDir, c.log.writeGapsDir,
    around.startedAt.milliseconds / 1000⟩
  let run := MigrationRun.begin setting (.fresh policy) (← get).files tables
  let (tables, cancelled) ← migrateUntilStopped a db run
  let report := RunReport.begin around.runId "migrate" c.fingerprint around.startedAt
  finish a { report with tables } cancelled

/-- Runs a transfer. -/
def transfer (a : Arguments) (c : Config) : ProgramWork Nat := do
  let around ← read
  MonadExcept.ofExcept c.validate
  let policy ← MonadExcept.ofExcept c.policy
  let db ← connectBoth c
  let result := transferPages db.endpoints c.log.transferGapsDir
    (around.startedAt.milliseconds / 1000) c.transfer (.fresh policy) (← get).files
  modify fun s => { s with files := result.files }
  follow db result.acts
  let transfer ← MonadExcept.ofExcept result.report
  if transfer.segments = 0 then
    note ⟨.warn, s!"{transfer.tableName}: the offset skips all segments"⟩
  let report := RunReport.begin around.runId "transfer" c.fingerprint around.startedAt
  finish a { report with transfer := some transfer } false

/-- Tells how long the databases take to answer. -/
def checkHealth (a : Arguments) (c : Config) : ProgramWork Nat := do
  let around ← read
  let db ← connectBoth c
  onDatabases (db.old.ping "old")
  onDatabases (db.new.ping "new")
  let health := around.latencies
  print (if a.outputJson then health.json.pretty ++ "\n"
    else textOfLines (health.lines c.old c.new))
  return 0

/-- Runs the command of a command line and tells the exit status. -/
def execute (a : Arguments) : ProgramWork Nat := do
  let c ← MonadExcept.ofExcept (Config.load ((← get).files.read a.config) (← read).environment)
  openLog a c
  note ⟨.info, "Loaded configuration from " ++ Text.quoted a.config⟩
  match a.command with
  | .migrate o => migrate a { c with migration := o.apply c.migration }
  | .transfer o => transfer a { c with transfer := o.apply c.transfer }
  | .healthCheck => checkHealth a c

/-- How the program is to be used. -/
def usage : String := "Usage: indexer-migrate [OPTIONS] <COMMAND>\n"

/-- The paths that the program follows: that of the configuration, and those that it holds. -/
def paths (words : List String) (environment : Environment) (files : FileTree) : List String :=
  match Arguments.ofWords words with
  | .error _ => []
  | .ok a =>
    a.config :: match Config.load (files.read a.config) environment with
      | .error _ => []
      | .ok c => (a.logFile.or c.log.file).toList ++
        [c.log.readGapsDir, c.log.writeGapsDir, c.log.transferGapsDir]

/-- What the program did in the end. -/
structure Ending where
  exitCode : Nat
  state : ProgramState

/-- The program. -/
def run (words : List String) (around : Surroundings) (files : FileTree) : Ending :=
  match Arguments.ofWords words with
  | .error .version => ⟨0, { files, output := "indexer-migrate 0.3.0\n" }⟩
  | .error .help => ⟨0, { files, output := usage }⟩
  | .error (.usage reason) =>
    ⟨2, { files, diagnostics := "error: " ++ reason.message ++ "\n\n" ++ usage }⟩
  | .ok a =>
    match ((execute a).run around).run.run { files } with
    | (.ok exitCode, s) => ⟨exitCode, s⟩
    | (.error reason, s) =>
      ⟨reason.exitCode, { s with diagnostics := s.diagnostics ++ reason.detailed ++ "\n" }⟩

end Program

end ChainMigration
