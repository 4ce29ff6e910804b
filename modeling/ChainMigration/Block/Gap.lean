import ChainMigration.Block.Range

/-! # Gaps

A gap is a range that was not migrated completely, with the reason. Its record is one line of a gap
file: the two ends of the range in decimal. -/

namespace ChainMigration

/-- The side that lost a range: reading it, or converting and writing it. -/
inductive GapKind
  | read
  | write
deriving DecidableEq

/-- Why a range is a gap. -/
inductive GapReason
  /-- The range could not be read. -/
  | readFailed
  /-- A table that must have rows everywhere had none in the range. -/
  | emptyRange
  /-- Heights were missing between the rows that were read. -/
  | discontinuity
  /-- The rows could not be converted. -/
  | transformFailed
  /-- The rows could not be written. -/
  | writeFailed
deriving DecidableEq

/-- The name of a gap kind. -/
def GapKind.name : GapKind → String
  | .read => "read"
  | .write => "write"

/-- The name of a gap reason. -/
def GapReason.name : GapReason → String
  | .readFailed => "read_failed"
  | .emptyRange => "empty_range"
  | .discontinuity => "discontinuity"
  | .transformFailed => "transform_failed"
  | .writeFailed => "write_failed"

/-- All gap reasons. -/
def GapReason.all : List GapReason :=
  [.readFailed, .emptyRange, .discontinuity, .transformFailed, .writeFailed]

/-- A range that was not migrated completely. -/
structure Gap where
  range : BlockRange
  reason : GapReason
deriving DecidableEq

namespace Gap

/-- The line of the gap in a gap file. -/
def record (g : Gap) : String := s!"{g.range.start}, {g.range.stop}\r\n"

/-- The gap as messages show it. -/
def text (g : Gap) : String := s!"{g.range} ({g.reason.name})"

end Gap

end ChainMigration
