import ChainMigration.Database.Reader
import ChainMigration.Database.Writer
import ChainMigration.Engine.Act

/-! # Databases as endpoints

A run reads from the old database and writes to the new one; each act of an engine executes
statements there. -/

namespace ChainMigration

/-- The two databases of a run. -/
structure Databases where
  old : Connection
  new : Connection

namespace Databases

/-- The databases as endpoints of an engine. -/
def endpoints (db : Databases) : Endpoints where
  read t range := (db.old.readRows t range).result
  write t range rows := (db.new.writeRows t range rows).result
  bounds := db.old.heightBounds.result
  lastPage name := (db.new.lastPage name).result
  copy name pages := (db.new.copyPages name pages).result

/-- The statements that an act executes. -/
def statements (db : Databases) : Act → List Executed
  | .read t range => (db.old.readRows t range).statements
  | .write t range rows _ => (db.new.writeRows t range rows).statements
  | .lookUp name => (db.new.lastPage name).statements
  | .copy name pages => (db.new.copyPages name pages).statements
  | _ => []

end Databases

end ChainMigration
