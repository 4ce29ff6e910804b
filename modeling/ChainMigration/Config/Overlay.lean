import ChainMigration.Config.Basic

/-! # Variables laid over a configuration

A variable of the environment takes the place of the setting it stands for. Numbers and truth values
are read without the blanks around them; the first that cannot be read decides the error. -/

namespace ChainMigration

/-- The variables that are set. -/
abbrev Environment := String → Option String

namespace Environment

/-- The text of a variable, or the setting if it is not set. -/
def text (env : Environment) (name : String) (setting : String) : String :=
  (env name).getD setting

/-- The text of a variable, or the optional setting if it is not set. -/
def textOr (env : Environment) (name : String) (setting : Option String) : Option String :=
  (env name).or setting

/-- Reads a variable, or keeps the setting if it is not set. -/
def overlay {α : Type} (env : Environment) (name : String) (read : String → Except VariableFault α)
    (setting : α) : Except ConfigError α :=
  match env name with
  | none => .ok setting
  | some value => (read (Text.trim value)).mapError (.variable name value)

/-- Reads a number of 16 bits. -/
def port (value : String) : Except VariableFault UInt16 := do
  return .ofNat (← (Text.readUnsigned UInt16.size value.toList).mapError .number)

/-- Reads a number of 64 bits. -/
def word (value : String) : Except VariableFault UInt64 := do
  return .ofNat (← (Text.readWord value).mapError .number)

/-- Reads a number of 64 bits for a setting that may be unset. -/
def wordOr (value : String) : Except VariableFault (Option UInt64) := do return some (← word value)

/-- Reads a truth value. -/
def bool : String → Except VariableFault Bool
  | "true" => .ok true
  | "false" => .ok false
  | _ => .error .bool

/-- The items of a list that is separated by commas; blank ones are dropped. -/
def listItems (value : String) : List String :=
  ((value.toList.splitOn ',').map Text.trimmed).filterMap fun item =>
    if item = [] then none else some (.ofList item)

end Environment

/-- Lays variables over the settings of a database; their names begin with the scope. -/
def DatabaseConfig.overlay (db : DatabaseConfig) (scope : String) (env : Environment) :
    Except ConfigError DatabaseConfig := do
  let port ← env.overlay (scope ++ "_PORT") Environment.port db.port
  let maxConnections ←
    env.overlay (scope ++ "_MAX_OPEN_CONNECTIONS") Environment.wordOr db.maxConnections
  return { db with
    database := env.text (scope ++ "_NAME") db.database
    host := env.text (scope ++ "_HOSTNAME") db.host
    port
    user := env.text (scope ++ "_USER") db.user
    password := env.text (scope ++ "_PASSWORD") db.password
    maxConnections }

/-- Lays variables over what to migrate. -/
def MigrationConfig.overlay (m : MigrationConfig) (env : Environment) :
    Except ConfigError MigrationConfig := do
  let start ← env.overlay "MIGRATION_START" Environment.wordOr m.start
  let stop ← env.overlay "MIGRATION_STOP" Environment.wordOr m.stop
  let workersPerTable ←
    env.overlay "MIGRATION_WORKERS_PER_TABLE" Environment.wordOr m.workersPerTable
  let autoRange ← env.overlay "MIGRATION_AUTO_RANGE" Environment.bool m.autoRange
  let segmentSize ←
    env.overlay "MIGRATION_AUTO_RANGE_SEGMENT_SIZE" Environment.wordOr m.segmentSize
  return { m with
    tables := ((env "MIGRATION_TABLE_NAMES").map Environment.listItems).getD m.tables
    workersPerTable, start, stop, autoRange, segmentSize }

/-- Lays variables over how to transfer pages. -/
def TransferConfig.overlay (t : TransferConfig) (env : Environment) :
    Except ConfigError TransferConfig := do
  let segmentSize ← env.overlay "TRANSFER_SEGMENT_SIZE" Environment.word t.segmentSize
  return { t with tableName := env.text "TRANSFER_TABLE_NAME" t.tableName, segmentSize }

/-- Lays variables over where logs and gap files go. -/
def LogConfig.overlay (l : LogConfig) (env : Environment) : LogConfig :=
  ⟨env.textOr "LOGRUS_LEVEL" l.level, env.textOr "LOGRUS_FILE" l.file,
    env.text "LOG_READ_GAPS_DIR" l.readGapsDir, env.text "LOG_WRITE_GAPS_DIR" l.writeGapsDir,
    env.text "LOG_TRANSFER_GAPS_DIR" l.transferGapsDir⟩

/-- The names of the variables that can be laid over a configuration. -/
def Config.variables : List String :=
  (["OLD_DATABASE", "NEW_DATABASE"].flatMap fun scope =>
    ["_NAME", "_HOSTNAME", "_PORT", "_USER", "_PASSWORD", "_MAX_OPEN_CONNECTIONS"].map
      (scope ++ ·)) ++
  ["MIGRATION_TABLE_NAMES", "MIGRATION_START", "MIGRATION_STOP", "MIGRATION_WORKERS_PER_TABLE",
    "MIGRATION_AUTO_RANGE", "MIGRATION_AUTO_RANGE_SEGMENT_SIZE", "TRANSFER_TABLE_NAME",
    "TRANSFER_SEGMENT_SIZE", "LOGRUS_LEVEL", "LOGRUS_FILE", "LOG_READ_GAPS_DIR",
    "LOG_WRITE_GAPS_DIR", "LOG_TRANSFER_GAPS_DIR"]

/-- Lays variables over a configuration. -/
def Config.overlay (c : Config) (env : Environment) : Except ConfigError Config := do
  let old ← c.old.overlay "OLD_DATABASE" env
  let new ← c.new.overlay "NEW_DATABASE" env
  let migration ← c.migration.overlay env
  let transfer ← c.transfer.overlay env
  return ⟨old, new, migration, transfer, c.log.overlay env⟩

end ChainMigration
