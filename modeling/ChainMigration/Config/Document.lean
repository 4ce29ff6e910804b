import ChainMigration.Config.Basic
import ChainMigration.Digest.Sha256
import ChainMigration.Yaml.Composer
import ChainMigration.Yaml.Render
import ChainMigration.Yaml.Typed

/-! # Configurations as documents

Reading a configuration from a YAML document and writing it as one. Settings that are unset are not
written; a configuration is identified by the digest of its document. -/

namespace ChainMigration

open Yaml (Node Document Reader)

/-- Reads a range: a list of its two ends. -/
def BlockRange.read : Reader BlockRange := fun d n => do
  match ← Reader.list Reader.word d n with
  | [start, stop] => (BlockRange.between start stop).toOption
  | _ => none

/-- Reads a range from a text. -/
def BlockRange.ofYaml? (text : String) : Option BlockRange := do
  let d ← Document.ofChars? text.toList
  BlockRange.read d d.root

/-- A whole number as it is written. -/
def numberNode (n : Nat) : Node := .plain (toString n)

/-- A truth value as it is written. -/
def boolNode (b : Bool) : Node := .plain (if b then "true" else "false")

/-- A setting as an entry. -/
def setting (name : String) (n : Node) : List (Node × Node) := [(.plain name, n)]

/-- A setting as an entry, unless it is unset. -/
def optionalSetting {α : Type} (name : String) (f : α → Node) : Option α → List (Node × Node)
  | some a => setting name (f a)
  | none => []

/-- A list of texts as it is written. -/
def textsNode (texts : List String) : Node := .sequence (texts.map .ofText)

namespace DatabaseConfig

/-- Reads the settings of a database. -/
def read : Reader DatabaseConfig := fun d n => do
  let entries ← Reader.entries ["host", "port", "database", "user", "password", "ssl_mode",
    "max_connections", "connect_timeout_secs"] d n
  return {
    host := ← Reader.default Reader.text "" d entries "host"
    port := .ofNat (← Reader.default (Reader.nat UInt16.size) 5432 d entries "port")
    database := ← Reader.default Reader.text "" d entries "database"
    user := ← Reader.default Reader.text "" d entries "user"
    password := ← Reader.default Reader.text "" d entries "password"
    sslMode := ← Reader.default Reader.text "disable" d entries "ssl_mode"
    maxConnections :=
      ← Reader.default (Reader.optional Reader.word) none d entries "max_connections"
    connectTimeoutSecs := ← Reader.default Reader.word 30 d entries "connect_timeout_secs" }

/-- The settings of a database as they are written. -/
def node (db : DatabaseConfig) : Node :=
  .mapping (setting "host" (.ofText db.host) ++
    setting "port" (numberNode db.port.toNat) ++
    setting "database" (.ofText db.database) ++
    setting "user" (.ofText db.user) ++
    setting "password" (.ofText db.password) ++
    setting "ssl_mode" (.ofText db.sslMode) ++
    optionalSetting "max_connections" (numberNode ·.toNat) db.maxConnections ++
    setting "connect_timeout_secs" (numberNode db.connectTimeoutSecs.toNat))

end DatabaseConfig

namespace MigrationConfig

/-- Reads what to migrate. -/
def read : Reader MigrationConfig := fun d n => do
  let entries ← Reader.entries ["tables", "workers_per_table", "ranges", "start", "stop",
    "auto_range", "segment_size", "must_exist_tables", "gap_on_any_read_failure"] d n
  let word (key : String) : Option (Option UInt64) :=
    Reader.default (Reader.optional Reader.word) none d entries key
  return {
    tables := ← Reader.default (Reader.list Reader.text) [] d entries "tables"
    workersPerTable := ← word "workers_per_table"
    ranges := ← Reader.default (Reader.list BlockRange.read) [] d entries "ranges"
    start := ← word "start"
    stop := ← word "stop"
    autoRange := ← Reader.default Reader.bool false d entries "auto_range"
    segmentSize := ← word "segment_size"
    mustExistTables := ← Reader.default (Reader.optional (Reader.list Reader.text)) none d entries
      "must_exist_tables"
    gapOnAnyReadFailure := ← Reader.default Reader.bool false d entries "gap_on_any_read_failure" }

/-- What to migrate as it is written. -/
def node (m : MigrationConfig) : Node :=
  .mapping (setting "tables" (textsNode m.tables) ++
    optionalSetting "workers_per_table" (numberNode ·.toNat) m.workersPerTable ++
    setting "ranges"
      (.sequence (m.ranges.map fun r => .sequence [numberNode r.start, numberNode r.stop])) ++
    optionalSetting "start" (numberNode ·.toNat) m.start ++
    optionalSetting "stop" (numberNode ·.toNat) m.stop ++
    setting "auto_range" (boolNode m.autoRange) ++
    optionalSetting "segment_size" (numberNode ·.toNat) m.segmentSize ++
    optionalSetting "must_exist_tables" textsNode m.mustExistTables ++
    setting "gap_on_any_read_failure" (boolNode m.gapOnAnyReadFailure))

end MigrationConfig

namespace TransferConfig

/-- Reads how to transfer pages. -/
def read : Reader TransferConfig := fun d n => do
  let entries ← Reader.entries ["table_name", "segment_size", "segment_offset", "max_page"] d n
  return {
    tableName := ← Reader.default Reader.text "v2db_public_blocks" d entries "table_name"
    segmentSize := ← Reader.default Reader.word 1000 d entries "segment_size"
    segmentOffset := ← Reader.default Reader.word 0 d entries "segment_offset"
    maxPage := ← Reader.default Reader.word 0 d entries "max_page" }

/-- How to transfer pages as it is written. -/
def node (t : TransferConfig) : Node :=
  .mapping (setting "table_name" (.ofText t.tableName) ++
    setting "segment_size" (numberNode t.segmentSize.toNat) ++
    setting "segment_offset" (numberNode t.segmentOffset.toNat) ++
    setting "max_page" (numberNode t.maxPage.toNat))

end TransferConfig

namespace LogConfig

/-- Reads where logs and gap files go. -/
def read : Reader LogConfig := fun d n => do
  let entries ← Reader.entries ["level", "file", "read_gaps_dir", "write_gaps_dir",
    "transfer_gaps_dir"] d n
  return {
    level := ← Reader.default (Reader.optional Reader.text) none d entries "level"
    file := ← Reader.default (Reader.optional Reader.text) none d entries "file"
    readGapsDir := ← Reader.default Reader.text "./readGaps/" d entries "read_gaps_dir"
    writeGapsDir := ← Reader.default Reader.text "./writeGaps/" d entries "write_gaps_dir"
    transferGapsDir :=
      ← Reader.default Reader.text "./transferGaps/" d entries "transfer_gaps_dir" }

/-- Where logs and gap files go as it is written. -/
def node (l : LogConfig) : Node :=
  .mapping (optionalSetting "level" .ofText l.level ++
    optionalSetting "file" .ofText l.file ++
    setting "read_gaps_dir" (.ofText l.readGapsDir) ++
    setting "write_gaps_dir" (.ofText l.writeGapsDir) ++
    setting "transfer_gaps_dir" (.ofText l.transferGapsDir))

end LogConfig

namespace Config

/-- Reads a configuration. Both databases must be there. -/
def read : Reader Config := fun d n => do
  let entries ← Reader.entries ["old", "new", "migration", "transfer", "log"] d n
  return {
    old := ← Reader.required DatabaseConfig.read d entries "old"
    new := ← Reader.required DatabaseConfig.read d entries "new"
    migration := ← Reader.default MigrationConfig.read {} d entries "migration"
    transfer := ← Reader.default TransferConfig.read {} d entries "transfer"
    log := ← Reader.default LogConfig.read {} d entries "log" }

/-- A configuration as it is written. -/
def node (c : Config) : Node :=
  .mapping (setting "old" c.old.node ++ setting "new" c.new.node ++
    setting "migration" c.migration.node ++ setting "transfer" c.transfer.node ++
    setting "log" c.log.node)

/-- The configuration that a text describes. -/
def ofText? (text : String) : Option Config := do
  let d ← Document.ofChars? text.toList
  read d d.root

/-- The text of a configuration. -/
def text (c : Config) : String := c.node.render

/-- The digest that identifies a configuration. -/
def fingerprint (c : Config) : String := Text.hex (Digest.sha256 c.text.toUTF8.toList)

end Config

end ChainMigration
