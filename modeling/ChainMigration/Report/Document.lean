import ChainMigration.Json.Pretty
import ChainMigration.Report.Basic

/-! # Reports as JSON

The reports as JSON documents. A run without tables or without a transfer leaves the entry out. -/

namespace ChainMigration

/-- A range as an array of its two ends. -/
def BlockRange.json (r : BlockRange) : Json := .array [.ofNat r.start, .ofNat r.stop]

/-- A gap as an object. -/
def Gap.json (g : Gap) : Json :=
  .object [("range", g.range.json), ("reason", .string g.reason.name)]

/-- The report of a table as an object. -/
def TableReport.json (r : TableReport) : Json :=
  .object [
    ("table", .string r.table.name),
    ("ranges_sent", .ofNat r.rangesSent),
    ("ranges_unsent", .ofNat r.rangesUnsent),
    ("read_gaps", .array (r.readGaps.map (·.json))),
    ("write_gaps", .array (r.writeGaps.map (·.json))),
    ("errors", .ofNat r.errors)]

/-- The report of a transfer as an object. -/
def TransferReport.json (r : TransferReport) : Json :=
  .object [
    ("table_name", .string r.tableName),
    ("segments", .ofNat r.segments),
    ("failed_segments", .array (r.failed.map (·.json))),
    ("errors", .ofNat r.errors)]

/-- The report of a run as an object. -/
def RunReport.json (r : RunReport) : Json :=
  .object (
    [("run_id", .string r.runId),
      ("command", .string r.command),
      ("status", .string r.status.name),
      ("started_at", .string r.startedAt.text),
      ("completed_at", .string r.completedAt.text),
      ("duration_seconds", .number (secondsText r.duration)),
      ("config_hash", .string r.configHash)] ++
    (if r.tables.isEmpty then [] else [("tables", .array (r.tables.map (·.json)))]) ++
    (match r.transfer with
      | some t => [("transfer", t.json)]
      | none => []))

/-- How long the two databases took to answer, in milliseconds. -/
structure HealthReport where
  oldLatency : Nat
  newLatency : Nat
deriving DecidableEq

/-- The health report as an object. -/
def HealthReport.json (r : HealthReport) : Json :=
  .object [("old_latency_ms", .ofNat r.oldLatency), ("new_latency_ms", .ofNat r.newLatency)]

end ChainMigration
