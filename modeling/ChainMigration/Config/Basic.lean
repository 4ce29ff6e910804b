import ChainMigration.Error
import ChainMigration.Policy
import ChainMigration.Text.Quoted

/-! # Configuration

The two databases, what to migrate, how to transfer pages, and where logs and gap files go. A
setting that the configuration leaves out has the default given here. -/

namespace ChainMigration

/-- How to connect to a database. -/
structure DatabaseConfig where
  host : String := ""
  port : UInt16 := 5432
  database : String := ""
  user : String := ""
  password : String := ""
  sslMode : String := "disable"
  /-- The largest number of connections; it follows from the workers if it is unset or zero. -/
  maxConnections : Option UInt64 := none
  connectTimeoutSecs : UInt64 := 30
deriving DecidableEq

/-- Which tables to migrate over which ranges. -/
structure MigrationConfig where
  tables : List String := []
  workersPerTable : Option UInt64 := none
  ranges : List BlockRange := []
  /-- The start of one more range. -/
  start : Option UInt64 := none
  stop : Option UInt64 := none
  /-- The range is detected from the headers of the old database. -/
  autoRange : Bool := false
  segmentSize : Option UInt64 := none
  /-- The tables that must have rows at every height, in place of the usual ones. -/
  mustExistTables : Option (List String) := none
  gapOnAnyReadFailure : Bool := false
deriving DecidableEq

/-- How to transfer pages through a foreign table. -/
structure TransferConfig where
  tableName : String := "v2db_public_blocks"
  /-- The number of pages in one transaction. -/
  segmentSize : UInt64 := 1000
  /-- How many segments to skip. -/
  segmentOffset : UInt64 := 0
  /-- The last page; zero asks the database for it. -/
  maxPage : UInt64 := 0
deriving DecidableEq

/-- Where logs and gap files go. -/
structure LogConfig where
  level : Option String := none
  file : Option String := none
  readGapsDir : String := "./readGaps/"
  writeGapsDir : String := "./writeGaps/"
  transferGapsDir : String := "./transferGaps/"
deriving DecidableEq

/-- A whole configuration. -/
structure Config where
  old : DatabaseConfig
  new : DatabaseConfig
  migration : MigrationConfig := {}
  transfer : TransferConfig := {}
  log : LogConfig := {}
deriving DecidableEq

/-- Where a database is, as messages show it. -/
def DatabaseConfig.target (db : DatabaseConfig) : String :=
  s!"{db.host}:{db.port.toNat}/{db.database}"

/-- All settings of a database but the password, as diagnostics show them. -/
def DatabaseConfig.description (db : DatabaseConfig) : String :=
  let maximum := match db.maxConnections with
    | some n => s!"Some({n.toNat})"
    | none => "None"
  "DatabaseConfig \x7b host: " ++ Text.quoted db.host ++ s!", port: {db.port.toNat}, database: " ++
    Text.quoted db.database ++ ", user: " ++ Text.quoted db.user ++
    ", password: \"[REDACTED]\", ssl_mode: " ++ Text.quoted db.sslMode ++
    s!", max_connections: {maximum}, connect_timeout_secs: {db.connectTimeoutSecs.toNat} " ++ "\x7d"

/-- The table of a name. -/
def namedTable (name : String) : Except MigrationError Table :=
  match Table.ofText? name with
  | some t => .ok t
  | none => .error (.unknownTable name)

namespace MigrationConfig

/-- How many workers a table gets: one if the number is unset or zero. -/
def workers (m : MigrationConfig) : Nat :=
  match m.workersPerTable with
  | some n => max n.toNat 1
  | none => 1

/-- The tables of the names, none of which may be there already. -/
def distinctTables (seen : List Table) : List String → Except MigrationError (List Table)
  | [] => .ok []
  | name :: names => do
    let t ← namedTable name
    if t ∈ seen then .error (.config (.repeatedTable t))
    else return t :: (← distinctTables (t :: seen) names)

/-- The tables to migrate, each of which may be listed once. -/
def tableNames (m : MigrationConfig) : Except MigrationError (List Table) :=
  distinctTables [] m.tables

/-- The listed ranges and the one that two bounds set. -/
def blockRanges (m : MigrationConfig) : Except MigrationError (List BlockRange) :=
  match m.start, m.stop with
  | some start, some stop =>
    match BlockRange.between start stop with
    | .ok r => .ok (m.ranges ++ [r])
    | .error reason => .error (.config (.range reason))
  | none, none => .ok m.ranges
  | _, _ => .error (.config .loneBound)

/-- The table is the one of a name; names are looked at up to the first that fits. -/
def isNamed (t : Table) : List String → Except MigrationError Bool
  | [] => .ok false
  | name :: names => do if (← namedTable name) = t then return true else isNamed t names

/-- A read of the table without rows is a gap. -/
def mustExist (m : MigrationConfig) (t : Table) : Except MigrationError Bool :=
  match m.mustExistTables with
  | none => .ok t.mustExist
  | some names => isNamed t names

end MigrationConfig

namespace Config

/-- How many connections to a database are kept: the configured number, or one for every worker and
two more. -/
def poolSize (c : Config) (db : DatabaseConfig) : Nat :=
  let derived := c.migration.workers * max c.migration.tables.length 1 + 2
  match db.maxConnections with
  | some n => if n = 0 then derived else n.toNat
  | none => derived

/-- The tables, of the given ones, for which a read without rows is a gap. -/
def requiredTables (c : Config) : List Table → Except MigrationError (List Table)
  | [] => .ok []
  | t :: ts => do
    let required ← c.migration.mustExist t
    let rest ← requiredTables c ts
    return if required then t :: rest else rest

/-- The policy that the configuration sets. -/
def policy (c : Config) : Except MigrationError Policy := do
  return ⟨c.migration.workers, ← c.requiredTables Table.all, c.migration.gapOnAnyReadFailure⟩

end Config

end ChainMigration
