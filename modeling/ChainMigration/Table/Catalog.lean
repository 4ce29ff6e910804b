import ChainMigration.Block.Gap
import ChainMigration.Block.Heights
import ChainMigration.Table.Name

/-! # What is known of each table

The promises a table makes about its heights and how its failures are reported. -/

namespace ChainMigration.Table

/-- What the table promises about the heights of its rows. -/
def continuity : Table → Continuity
  | headers => .strict
  | state | accounts => .grouped
  | _ => .none

/-- Every height must have a row, so a read without rows is a gap. -/
def mustExist : Table → Bool
  | headers | state | accounts => true
  | _ => false

/-- On which side a failed read is reported as a gap. -/
def readFailureGap : Table → Option GapKind
  | headers | state | accounts => some .read
  | logRepair => some .write
  | _ => none

/-- The table is read by ranges of heights and not as a whole. -/
def heightSegmented : Table → Bool
  | nodes => false
  | _ => true

end ChainMigration.Table
