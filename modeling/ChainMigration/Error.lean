import ChainMigration.Row.Upgrade

/-! # Errors

Everything that can go wrong in a run, by cause. The wording is in one function for each kind of
cause, and `MigrationError.message` puts them together. -/

namespace ChainMigration

/-- Why a system call on a file failed. -/
inductive FileError
  | notFound
  | exists
  | notDirectory
  | isDirectory
  | nameTooLong
  /-- A path with a zero character is not even looked up. -/
  | zeroCharacter
  /-- A configuration file is not encoded text. -/
  | notText
  | other (message : String)
deriving DecidableEq

/-- The wording of a file error. -/
def FileError.message : FileError → String
  | .notFound => "No such file or directory (os error 2)"
  | .exists => "File exists (os error 17)"
  | .notDirectory => "Not a directory (os error 20)"
  | .isDirectory => "Is a directory (os error 21)"
  | .nameTooLong => "File name too long (os error 36)"
  | .zeroCharacter => "file name contained an unexpected NUL byte"
  | .notText => "stream did not contain valid UTF-8"
  | .other message => message

/-- Why no connection could be had. -/
inductive ConnectError
  /-- The pool of connections has been closed. -/
  | closed
  /-- No server answers. -/
  | unreachable
  /-- The server refuses the login, for the given reason. -/
  | refused (reason : String)
  /-- The server offers no encryption. -/
  | handshake
deriving DecidableEq

/-- The wording of a connection error. -/
def ConnectError.message : ConnectError → String
  | .closed => "Pool has been closed"
  | .unreachable => "Error occurred while creating a new object: error connecting to server"
  | .refused _ => "Error occurred while creating a new object: db error"
  | .handshake => "Error occurred while creating a new object: error performing TLS handshake"

/-- Why a statement gave no usable result. -/
inductive StatementError
  /-- The server refused the statement, for the given reason. -/
  | rejected (reason : String)
  /-- A column cannot be read. -/
  | cell (reason : CellError)
deriving DecidableEq

/-- The wording of a cell error. -/
def CellError.message : CellError → String
  | .missing name => "invalid column \x60" ++ name ++ "\x60"
  | .undecodable index => s!"error deserializing column {index}"

/-- The wording of a statement error. -/
def StatementError.message : StatementError → String
  | .rejected _ => "db error"
  | .cell reason => reason.message

/-- The causes behind a statement error, from the outside in. -/
def StatementError.causes : StatementError → List String
  | .rejected reason => ["ERROR: " ++ reason]
  | .cell _ => []

/-- Why a database operation failed. -/
inductive DatabaseError
  | connect (reason : ConnectError)
  | statement (reason : StatementError)
  /-- A cause in words. -/
  | other (message : String)
deriving DecidableEq

/-- The wording of a database error. -/
def DatabaseError.message : DatabaseError → String
  | .connect reason => reason.message
  | .statement reason => reason.message
  | .other message => message

/-- Why a text is not the value of a variable. -/
inductive VariableFault
  | number (reason : Text.NumberError)
  | bool
deriving DecidableEq

/-- The wording of a variable fault. -/
def VariableFault.message : VariableFault → String
  | .number reason => reason.message
  | .bool => "provided string was not \x60true\x60 or \x60false\x60"

/-- Why a configuration cannot be used. -/
inductive ConfigError
  /-- Heights or a size make no ranges. -/
  | range (reason : RangeError)
  /-- A text that must be set is empty. -/
  | required (field : String)
  /-- A mode of encryption is unknown; the text is in lowercase. -/
  | sslMode (mode : String)
  /-- A table is listed twice. -/
  | repeatedTable (table : Table)
  /-- Rows would be moved within one database. -/
  | sameDatabase
  /-- Only one of the two bounds of a range is set. -/
  | loneBound
  /-- The size of the ranges is zero. -/
  | zeroSegmentSize
  /-- The range is to be detected, but the size of the ranges is not set. -/
  | autoRangeSize
  /-- The same, found while the ranges are planned. -/
  | planSize
  /-- The number of pages in a segment is zero. -/
  | zeroPages
  /-- The same, found while a transfer is started. -/
  | transferSize
  /-- The value of a variable does not fit its setting. -/
  | variable (name value : String) (reason : VariableFault)
  /-- There is no table to migrate. -/
  | noTables
  /-- There is no range to migrate. -/
  | noRanges
  /-- A cause in words. -/
  | other (message : String)
deriving DecidableEq

/-- The wording of a configuration error. -/
def ConfigError.message : ConfigError → String
  | .range reason => reason.message
  | .required field => s!"{field} is required"
  | .sslMode mode =>
    "Invalid ssl_mode '" ++ mode ++ "'. Valid values: disable, require, verify-ca, verify-full"
  | .repeatedTable table => s!"migration.tables lists {table} more than once"
  | .sameDatabase => "old and new cannot be the same database"
  | .loneBound => "migration.start and migration.stop must be set together"
  | .zeroSegmentSize => "migration.segment_size must be at least 1"
  | .autoRangeSize => "migration.segment_size is required when migration.auto_range is set"
  | .planSize => "migration.segment_size is required for auto range"
  | .zeroPages => "transfer.segment_size must be at least 1"
  | .transferSize => "transfer segment size must be at least 1"
  | .variable name value reason => name ++ "='" ++ value ++ "': " ++ reason.message
  | .noTables => "no tables configured; set migration.tables or --tables"
  | .noRanges => "no block ranges configured; set migration.ranges, start/stop or auto_range"
  | .other message => message

/-- Why the heights or pages to move could not be detected. -/
inductive DetectionError
  /-- The heights could not be asked for. -/
  | bounds (reason : DatabaseError)
  /-- There are no block headers. -/
  | noHeaders
  /-- A height is no number. -/
  | height (raw : String) (reason : Text.NumberError)
  /-- The lowest height is above the highest. -/
  | inverted (low high : Nat)
  /-- The foreign table has no rows. -/
  | noPages (table : String)
  /-- The place of the last row is no pair of numbers. -/
  | place (raw table : String)
  /-- A cause in words. -/
  | other (message : String)
deriving DecidableEq

/-- The wording of a detection error. -/
def DetectionError.message : DetectionError → String
  | .bounds reason => s!"querying eth.header_cids bounds: {reason.message}"
  | .noHeaders => "eth.header_cids is empty"
  | .height raw reason => badHeightText raw reason
  | .inverted low high => s!"minimum height {low} is above maximum height {high}"
  | .noPages table => s!"foreign table {table} has no rows"
  | .place raw table => "unparseable ctid '" ++ raw ++ "' from " ++ table
  | .other message => message

/-- Why reading a range failed. -/
inductive ReadError
  | database (reason : DatabaseError)
  /-- A height does not fit a parameter of the query. -/
  | bigint (height : Nat)
  /-- A table that must have rows everywhere had none. -/
  | noRows
deriving DecidableEq

/-- The wording of a read error. -/
def ReadError.message : ReadError → String
  | .database reason => reason.message
  | .bigint height => s!"height {height} exceeds BIGINT"
  | .noRows => "no rows found; every height must have at least one"

/-- Why copying pages failed. -/
inductive CopyError
  | database (reason : DatabaseError)
  /-- A page does not fit a parameter of the statement. -/
  | page
deriving DecidableEq

/-- The wording of a copy error. -/
def CopyError.message : CopyError → String
  | .database reason => reason.message
  | .page => "number too large to fit in target type"

/-- What went wrong in a run. -/
inductive MigrationError
  | config (reason : ConfigError)
  | database (reason : StatementError)
  | pool (reason : DatabaseError) (context : String)
  | unknownTable (name : String)
  | rangeDetection (reason : DetectionError)
  | read (table : String) (range : BlockRange) (reason : ReadError)
  | transform (table : String) (range : BlockRange) (reason : UpgradeError)
  | write (table : String) (range : BlockRange) (reason : DatabaseError)
  | transfer (table : String) (pages : BlockRange) (reason : CopyError)
  | file (reason : FileError)
  /-- A configuration file that does not describe a configuration. -/
  | yaml
  /-- A text that is not the JSON that was asked for. -/
  | json
  | cancelled
deriving DecidableEq

namespace MigrationError

/-- The name of the kind of an error. -/
def kind : MigrationError → String
  | config _ => "Config"
  | database _ => "Database"
  | pool _ _ => "Pool"
  | unknownTable _ => "UnknownTable"
  | rangeDetection _ => "RangeDetection"
  | read _ _ _ => "Read"
  | transform _ _ _ => "Transform"
  | write _ _ _ => "Write"
  | transfer _ _ _ => "Transfer"
  | file _ => "Io"
  | yaml => "Yaml"
  | json => "Json"
  | cancelled => "Cancelled"

/-- The wording of an error. -/
def message : MigrationError → String
  | config reason => s!"Configuration error: {reason.message}"
  | database reason => s!"Database error: {reason.message}"
  | pool reason context => s!"Pool error: {reason.message}\n  Context: {context}"
  | unknownTable name => s!"Unrecognized table name: {name}"
  | rangeDetection reason => s!"Range detection failed: {reason.message}"
  | read table range reason => s!"Read failed for {table} range {range}: {reason.message}"
  | transform table range reason =>
    s!"Transform failed for {table} range {range}: {reason.message}"
  | write table range reason => s!"Write failed for {table} range {range}: {reason.message}"
  | transfer table pages reason =>
    s!"Transfer failed for {table} pages {pages}: {reason.message}"
  | file reason => s!"IO error: {reason.message}"
  | yaml => "YAML error"
  | json => "JSON error"
  | cancelled => "Migration cancelled"

/-- The causes behind an error, from the outside in. -/
def causes : MigrationError → List String
  | database reason => reason.message :: reason.causes
  | file reason => [reason.message]
  | _ => []

/-- The causes, numbered. -/
def numberedCauses (depth : Nat) : List String → String
  | [] => ""
  | cause :: causes => s!"\nCaused by:\n  {depth}: {cause}" ++ numberedCauses (depth + 1) causes

/-- The error with all its causes. -/
def detailed (e : MigrationError) : String :=
  s!"Error: {e.message}\n" ++ numberedCauses 1 e.causes

/-- The exit status of a program that ends with the error. -/
def exitCode : MigrationError → Nat
  | config _ | unknownTable _ | yaml | json => 1
  | database _ | pool _ _ | rangeDetection _ => 2
  | read _ _ _ | transform _ _ _ | write _ _ _ | transfer _ _ _ => 3
  | file _ => 7
  | cancelled => 130

end MigrationError

end ChainMigration
