import ChainMigration.Cli.Options
import ChainMigration.Config.Basic

/-! # Arguments

What a command line asks for: where the configuration is, how to log and to report, and a command
with the settings that it puts in place of those of the configuration. -/

namespace ChainMigration

/-- Settings of a migration in place of the configured ones. -/
structure MigrateOverrides where
  tables : List String := []
  workersPerTable : Option UInt64 := none
  range : Option (UInt64 × UInt64) := none
  autoRange : Bool := false
  segmentSize : Option UInt64 := none

/-- Settings of a transfer in place of the configured ones. -/
structure TransferOverrides where
  tableName : Option String := none
  segmentSize : Option UInt64 := none
  segmentOffset : Option UInt64 := none
  maxPage : Option UInt64 := none

/-- What a program is to do. -/
inductive Command
  | migrate (overrides : MigrateOverrides)
  | transfer (overrides : TransferOverrides)
  | healthCheck

/-- What a command line asks for. -/
structure Arguments where
  config : String
  outputJson : Bool
  logFormat : String
  verbosity : Option String
  logFile : Option String
  /-- How many seconds to wait for workers after a signal. -/
  shutdownTimeout : Nat
  command : Command

/-- Puts settings in place of the configured ones. -/
def MigrateOverrides.apply (o : MigrateOverrides) (m : MigrationConfig) : MigrationConfig :=
  { m with
    tables := if o.tables.isEmpty then m.tables else o.tables
    workersPerTable := o.workersPerTable.or m.workersPerTable
    start := (o.range.map (·.1)).or m.start
    stop := (o.range.map (·.2)).or m.stop
    autoRange := o.autoRange || m.autoRange
    segmentSize := o.segmentSize.or m.segmentSize }

/-- Puts settings in place of the configured ones. -/
def TransferOverrides.apply (o : TransferOverrides) (t : TransferConfig) : TransferConfig where
  tableName := o.tableName.getD t.tableName
  segmentSize := o.segmentSize.getD t.segmentSize
  segmentOffset := o.segmentOffset.getD t.segmentOffset
  maxPage := o.maxPage.getD t.maxPage

namespace Arguments

/-- The option that asks for an explanation. -/
def helpOption : KnownOption := ⟨"help", some 'h', .help⟩

/-- The options in front of the command. -/
def options : List KnownOption :=
  [⟨"config", some 'c', .path⟩, ⟨"output-json", none, .flag⟩, ⟨"log-format", none, .text⟩,
    ⟨"verbosity", none, .text⟩, ⟨"log-file", none, .path⟩, ⟨"shutdown-timeout", none, .number⟩,
    helpOption, ⟨"version", some 'V', .version⟩]

/-- The options of a migration. -/
def migrateOptions : List KnownOption :=
  [⟨"tables", none, .texts⟩, ⟨"workers-per-table", none, .number⟩,
    ⟨"start-height", none, .number⟩, ⟨"stop-height", none, .number⟩, ⟨"auto-range", none, .flag⟩,
    ⟨"segment-size", none, .number⟩, helpOption]

/-- The options of a transfer. -/
def transferOptions : List KnownOption :=
  [⟨"transfer-table-name", none, .text⟩, ⟨"transfer-segment-size", none, .number⟩,
    ⟨"segment-offset", none, .number⟩, ⟨"max-page", none, .number⟩, helpOption]

/-- Reads the options of a command, behind which no word may be left. -/
def readAll (known : List KnownOption) (words : List String) : Except NoCommand GivenOptions := do
  match ← readOptions known [] words with
  | (given, []) => return given
  | (_, word :: _) => .error (.usage (.unexpected word))

/-- The two heights of a range, which are given together. -/
def heights (given : GivenOptions) : Except NoCommand (Option (UInt64 × UInt64)) :=
  match given.number? "start-height", given.number? "stop-height" with
  | some start, some stop => .ok (some (start, stop))
  | none, none => .ok none
  | some _, none => .error (.usage (.alone "start-height" "stop-height"))
  | none, some _ => .error (.usage (.alone "stop-height" "start-height"))

/-- Reads the options of a migration. -/
def migrate (words : List String) : Except NoCommand MigrateOverrides := do
  let given ← readAll migrateOptions words
  let range ← heights given
  return ⟨given.texts "tables", given.number? "workers-per-table", range, given.has "auto-range",
    given.number? "segment-size"⟩

/-- Reads the options of a transfer. -/
def transfer (words : List String) : Except NoCommand TransferOverrides := do
  let given ← readAll transferOptions words
  return ⟨given.text? "transfer-table-name", given.number? "transfer-segment-size",
    given.number? "segment-offset", given.number? "max-page"⟩

/-- Reads a command with its options. -/
def readCommand : List String → Except NoCommand Command
  | "migrate" :: words => do return .migrate (← migrate words)
  | "transfer" :: words => do return .transfer (← transfer words)
  | "health-check" :: words => do
    let _ ← readAll [helpOption] words
    return .healthCheck
  | ["help"] | ["help", "migrate"] | ["help", "transfer"] | ["help", "health-check"]
  | ["help", "help"] => .error .help
  | "help" :: word :: _ | word :: _ => .error (.usage (.unexpected word))
  | [] => .error (.usage .noCommand)

/-- Reads a command line. -/
def ofWords (words : List String) : Except NoCommand Arguments := do
  let (given, rest) ← readOptions options [] words
  let command ← readCommand rest
  return {
    config := (given.text? "config").getD "config.yaml"
    outputJson := given.has "output-json"
    logFormat := (given.text? "log-format").getD "text"
    verbosity := given.text? "verbosity"
    logFile := given.text? "log-file"
    shutdownTimeout := ((given.number? "shutdown-timeout").map (·.toNat)).getD 60
    command }

end Arguments

end ChainMigration
