import ChainMigration.Config.Document
import ChainMigration.Config.Overlay
import ChainMigration.Config.SslMode

/-! # Valid configurations

What a configuration must fulfil before a run, checked in a fixed order, and loading a configuration
from a file. -/

namespace ChainMigration

/-- Refuses with a reason unless the condition holds. -/
def demand (holds : Bool) (reason : ConfigError) : Except MigrationError Unit :=
  if holds then .ok () else .error (.config reason)

/-- Checks the settings of a database, which are named by a section. -/
def DatabaseConfig.validate (db : DatabaseConfig) (name : String) : Except MigrationError Unit := do
  demand (!db.host.isEmpty) (.required (name ++ ".host"))
  demand (!db.database.isEmpty) (.required (name ++ ".database"))
  demand (!db.user.isEmpty) (.required (name ++ ".user"))
  let _ ← (SslMode.ofText db.sslMode).mapError MigrationError.config

/-- Two databases are the same one. -/
def DatabaseConfig.sameAs (a b : DatabaseConfig) : Bool :=
  a.host == b.host && a.port == b.port && a.database == b.database

namespace Config

/-- Only blobs of migrated logs are repaired, which happens within the new database. -/
def repairsOnly (tables : List Table) : Bool := !tables.isEmpty && tables.all (· == .logRepair)

/-- Checks a configuration. -/
def validate (c : Config) : Except MigrationError Unit := do
  c.old.validate "old"
  c.new.validate "new"
  let tables ← c.migration.tableNames
  demand (repairsOnly tables || !c.old.sameAs c.new) .sameDatabase
  let _ ← c.migration.blockRanges
  let _ ← (c.migration.mustExistTables.getD []).mapM namedTable
  demand (c.migration.segmentSize != some 0) .zeroSegmentSize
  demand (!c.migration.autoRange || c.migration.segmentSize.isSome) .autoRangeSize
  demand (c.transfer.segmentSize != 0) .zeroPages
  demand (!(Text.trim c.transfer.tableName).isEmpty) (.required "transfer.table_name")

/-- Reads a configuration from a text. -/
def ofYaml (text : String) : Except MigrationError Config :=
  match ofText? text with
  | some c => .ok c
  | none => .error .yaml

/-- Reads a configuration from a text and checks it. -/
def ofValidYaml (text : String) : Except MigrationError Config := do
  let c ← ofYaml text
  c.validate
  return c

/-- Reads a configuration from a text and lays variables over it. -/
def ofYamlOver (text : String) (env : Environment) : Except MigrationError Config := do
  let c ← ofYaml text
  (c.overlay env).mapError MigrationError.config

/-- Loads a configuration from the content of a file, lays variables over it and checks it. -/
def load (content : Except FileError ByteArray) (env : Environment) :
    Except MigrationError Config := do
  let bytes ← content.mapError MigrationError.file
  match String.fromUTF8? bytes with
  | none => .error (.file .notText)
  | some text => do
    let c ← ofYamlOver text env
    c.validate
    return c

end Config

end ChainMigration
