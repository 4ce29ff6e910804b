import ChainMigration.Config.Basic
import ChainMigration.Report.Document

/-! # Printed reports

The reports as lines for people to read. -/

namespace ChainMigration

/-- A duration of so many milliseconds in seconds, with two places. -/
def durationText (milliseconds : Nat) : String :=
  let hundredths := (milliseconds + 5) / 10
  s!"{hundredths / 100}." ++ Timestamp.padded 2 (hundredths % 100) ++ "s"

/-- The line that tells how a run ended. -/
def RunStatus.heading : RunStatus → String
  | .cancelled => "Run cancelled."
  | .completedWithGaps => "Run completed with gaps!"
  | .completed | .running => "Run completed!"

/-- The line of a table. -/
def TableReport.line (r : TableReport) : String :=
  s!"  {r.table}: {r.rangesSent} ranges sent, {r.rangesUnsent} unsent, " ++
    s!"{r.readGaps.length} read gaps, {r.writeGaps.length} write gaps, {r.errors} errors"

/-- The lines of a transfer. -/
def TransferReport.lines (r : TransferReport) : List String :=
  s!"  {r.tableName}: {r.segments} segments, {r.failed.length} failed, {r.errors} errors" ::
    r.failed.map fun pages => s!"    failed pages {pages}"

/-- The lines of a run. -/
def RunReport.lines (r : RunReport) : List String :=
  ["", r.status.heading, "  Run ID: " ++ r.runId, "  Duration: " ++ durationText r.duration] ++
    r.tables.map (·.line) ++ (r.transfer.map (·.lines)).getD []

/-- The lines of the latencies of two databases. -/
def HealthReport.lines (r : HealthReport) (old new : DatabaseConfig) : List String :=
  ["Health Check Results:",
    s!"  Old (v2): OK {old.target} ({r.oldLatency}ms)",
    s!"  New (v3): OK {new.target} ({r.newLatency}ms)"]

/-- Lines as a text. -/
def textOfLines (lines : List String) : String := .join (lines.map (· ++ "\n"))

end ChainMigration
