import ChainMigration.Block.Gap
import ChainMigration.Report.Time
import ChainMigration.Table.Name
import ChainMigration.Total

/-! # Run reports

What a run did to each table, or to the pages of a transfer, and how it ended. -/

namespace ChainMigration

/-- What became of one table. -/
structure TableReport where
  table : Table
  rangesSent : Nat
  /-- Ranges not sent to a worker because the workers stopped first. -/
  rangesUnsent : Nat
  readGaps : List Gap
  writeGaps : List Gap
  errors : Nat
deriving DecidableEq

namespace TableReport

/-- The report of a table before anything happened. -/
def empty (t : Table) : TableReport := ⟨t, 0, 0, [], [], 0⟩

/-- There is a gap on either side. -/
def hasGaps (r : TableReport) : Bool := !r.readGaps.isEmpty || !r.writeGaps.isEmpty

/-- How many heights the gaps of both sides cover. -/
def gapHeights (r : TableReport) : Nat := total (·.range.len) (r.readGaps ++ r.writeGaps)

end TableReport

/-- What became of a transfer of pages. -/
structure TransferReport where
  tableName : String
  segments : Nat
  failed : List BlockRange
  errors : Nat
deriving DecidableEq

/-- How a run ended. -/
inductive RunStatus
  | running
  | completed
  | completedWithGaps
  | cancelled
deriving DecidableEq

/-- The name of a status. -/
def RunStatus.name : RunStatus → String
  | .running => "running"
  | .completed => "completed"
  | .completedWithGaps => "completed_with_gaps"
  | .cancelled => "cancelled"

/-- The identifier of a run: 128 random bits, six of which mark the kind of identifier. -/
structure RunId where
  bits : Nat
deriving DecidableEq

/-- The identifier as five groups of hexadecimal digits. -/
def RunId.text (id : RunId) : String :=
  let group (skipped count : Nat) : String :=
    .ofList ((List.range count).map fun i =>
      (Nat.digitChar (id.bits / Nat.pow 16 (skipped + count - 1 - i) % 16)))
  let variant := Nat.digitChar (8 + id.bits / Nat.pow 16 15 % 4)
  "-".intercalate [group 24 8, group 20 4, "4" ++ group 16 3, variant.toString ++ group 12 3,
    group 0 12]

/-- The report of a whole run. -/
structure RunReport where
  runId : String
  command : String
  status : RunStatus
  startedAt : Timestamp
  completedAt : Timestamp
  /-- The duration in milliseconds. -/
  duration : Nat
  configHash : String
  tables : List TableReport
  transfer : Option TransferReport
deriving DecidableEq

namespace RunReport

/-- The report of a run that has just begun. -/
def begin (id : RunId) (command configHash : String) (now : Timestamp) : RunReport :=
  ⟨id.text, command, .running, now, now, 0, configHash, [], none⟩

/-- There is a gap in a table or a page that was not transferred. -/
def hasGaps (r : RunReport) : Bool :=
  r.tables.any (·.hasGaps) || r.transfer.any (!·.failed.isEmpty)

/-- The status of a run that has ended. -/
def finalStatus (r : RunReport) (cancelled : Bool) : RunStatus :=
  if cancelled then .cancelled
  else if r.hasGaps then .completedWithGaps
  else .completed

/-- The report of the run once it has ended. -/
def finish (r : RunReport) (cancelled : Bool) (now : Timestamp) : RunReport :=
  { r with
    completedAt := now
    duration := (now.milliseconds - r.startedAt.milliseconds).toNat
    status := r.finalStatus cancelled }

/-- The exit status of a program whose run ended with the report. -/
def exitCode (r : RunReport) : Nat :=
  if r.status = .cancelled then 130
  else if r.hasGaps then 3
  else 0

end RunReport

end ChainMigration
