import ChainMigration.Config.Basic
import ChainMigration.Engine.Work

/-! # Planning

The ranges that a run migrates: detected from the heights of the old headers and cut to one size, or
as configured. -/

namespace ChainMigration

/-- Ranges of one size over all heights of the old headers. -/
def detectRanges (bounds : Except MigrationError (UInt64 × UInt64)) (size : UInt64) :
    Except MigrationError (List BlockRange) := do
  let (low, high) ← bounds
  (segment size low high).mapError fun reason => .config (.range reason)

namespace Config

/-- Planning asks for the heights of the old headers. -/
def asksBounds (c : Config) : Bool := c.migration.autoRange && c.migration.segmentSize.isSome

/-- The ranges of a run, of which there must be one. -/
def plan (c : Config) (bounds : Except MigrationError (UInt64 × UInt64)) :
    Except MigrationError (List BlockRange) := do
  let ranges ←
    if c.migration.autoRange then
      match c.migration.segmentSize with
      | none => .error (.config .planSize)
      | some size => detectRanges bounds size
    else c.migration.blockRanges
  if ranges.isEmpty then .error (.config .noRanges) else .ok ranges

end Config

/-- The ranges of a table. Nodes have no heights and are copied in one pass, with the first range.
-/
def Table.planned (t : Table) (ranges : List BlockRange) : List BlockRange :=
  if t = .nodes then ranges.take 1 else ranges

end ChainMigration
