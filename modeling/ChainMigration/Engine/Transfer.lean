import ChainMigration.Config.Basic
import ChainMigration.Engine.Act

/-! # Starting a transfer

The pages from zero to the last one are cut into segments, of which those before an offset are
skipped. If no last page is configured, the foreign table is asked for it. -/

namespace ChainMigration

namespace TransferConfig

/-- Starting the transfer asks for the last page. -/
def asksLastPage (c : TransferConfig) : Bool := c.segmentSize ≠ 0 && c.maxPage = 0

/-- What starting the transfer shows. -/
def lookUps (c : TransferConfig) : List Act := if c.asksLastPage then [.lookUp c.tableName] else []

/-- The segments of the transfer. -/
def segments (c : TransferConfig) (lastPage : String → Except MigrationError UInt64) :
    Except MigrationError (List BlockRange) :=
  if c.segmentSize = 0 then .error (.config .transferSize)
  else do
    let last ← if c.maxPage = 0 then lastPage c.tableName else .ok c.maxPage
    match segment c.segmentSize 0 last with
    | .ok segments => return segments.drop c.segmentOffset.toNat
    | .error reason => .error (.config (.range reason))

end TransferConfig

/-- Starts a transfer; its number and how many segments it has come with the engine. -/
def Engine.startTransfer (e : Engine) (c : TransferConfig)
    (lastPage : String → Except MigrationError UInt64) :
    Except MigrationError (Nat × Nat × Engine) := do
  let segments ← c.segments lastPage
  let (index, e) := e.transfer c.tableName segments
  return (index, segments.length, e)

end ChainMigration
