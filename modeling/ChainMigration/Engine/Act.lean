import ChainMigration.Engine.Schedule

/-! # Acts

What of an engine's events its surroundings can see: the reads, writes and copies that it begins or
ends, and what its workers tell. -/

namespace ChainMigration

/-- What an engine does that its surroundings can see. -/
inductive Act
  /-- A worker begins to read. -/
  | read (table : Table) (range : BlockRange)
  /-- A write ends, accepted or not. -/
  | write (table : Table) (range : BlockRange) (rows : NewRows) (accepted : Bool)
  | tell (table : Table) (notice : Notice)
  /-- A worker exits. -/
  | exit (table : Table)
  /-- The last worker of a table has exited. -/
  | finish (table : Table)
  /-- A foreign table is asked for its last page. -/
  | lookUp (name : String)
  /-- A copier begins to copy. -/
  | copy (name : String) (pages : BlockRange)
  /-- A copier tells why it could not copy. -/
  | copyFailure (name : String) (reason : MigrationError)
deriving DecidableEq

/-- What a move of a pool shows. -/
def Pool.act? (pool : Pool) : PoolMove → Option Act
  | .take _ range => some (.read pool.table range)
  | .write _ range rows answer => some (.write pool.table range rows answer.isOk)
  | .tell _ notice => some (.tell pool.table notice)
  | .exit _ => some (.exit pool.table)
  | .finish => some (.finish pool.table)
  | _ => none

/-- What an event of an engine shows. -/
def Engine.act? (e : Engine) : Event → Option Act
  | .pool i move => (e.pools[i]?).bind (·.act? move)
  | .transfer i (.start pages) => (e.transfers[i]?).map (.copy ·.table pages)
  | .transfer i (.tell reason) => (e.transfers[i]?).map (.copyFailure ·.table reason)
  | _ => none

end ChainMigration
