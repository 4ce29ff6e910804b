import ChainMigration.Config.SslMode
import ChainMigration.Database.Statement

/-! # Connections

A connection to a database is opened with a login and a first statement, and gives no more results
once it is closed. -/

namespace ChainMigration

/-- The connections to a database. -/
structure Connection where
  server : Server
  database : String
  closed : Bool := false

namespace Connection

/-- There is a connection to be had. -/
def get (c : Connection) : DatabaseWork DatabaseError Unit :=
  if c.closed then throw (.connect .closed) else pure ()

/-- Executes a statement. -/
def execute (c : Connection) (s : Statement) : DatabaseWork StatementError s.Result := do
  modify (· ++ [⟨c.database, s⟩])
  match c.server.execute c.database s with
  | .ok result => return result
  | .error reason => throw (.rejected reason)

/-- Shows that a connection works; the role of the database appears in errors. -/
def ping (c : Connection) (role : String) : DatabaseWork MigrationError Unit := do
  c.get.mapError (.pool · s!"testing {role} database connection")
  (c.execute .ping).mapError .database

/-- Opens connections to a database. -/
def connect (server : Server) (db : DatabaseConfig) (role : String) :
    DatabaseWork MigrationError Connection := do
  let mode ← MonadExcept.ofExcept ((SslMode.ofText db.sslMode).mapError MigrationError.config)
  let c : Connection := { server, database := db.database }
  match server.login db mode.encrypted with
  | .error reason => throw (.pool (.connect reason) s!"testing {role} database connection")
  | .ok () =>
    c.ping role
    return c

end Connection

end ChainMigration
