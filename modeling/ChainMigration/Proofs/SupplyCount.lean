import ChainMigration.Proofs.GapFiles
import ChainMigration.Proofs.RunHistory

/-! # What a report counts as sent

A range counts as sent once it is in the queue of its pool, where there is room for one range. The
report of a table is therefore exact but for this one range (`report_of_complete`): a pool that is
told to stop may leave a range in its queue, which no worker ever takes and which is counted as sent
all the same (`stoppedRun_counts`). -/

namespace ChainMigration

/-- **What a report counts**, for every table of a run and however the run went. The ranges of the
table are those that the workers took, in order, then the ones that were left in the queue of the
pool, then the unsent ones. At most one range is left, and only if the pool was told to stop. The
range that is left is counted as sent, so the report tells how many ranges the workers took exactly
if none is left; and no range will be taken any more. -/
theorem report_of_complete {s : RunSetting} {e : Engine} {files : FileTree} {tables : List Table}
    {events : List RunEvent} {r : MigrationRun} {j : Nat} {job : TableJob} (he : e.Reachable)
    (hrun : (MigrationRun.begin s e files tables).run? events = some r)
    (hj : r.jobs[j]? = some job) (hcomplete : job.complete = true) :
    let planned := job.table.planned s.ranges
    let taken := (jobMoves e.pools.length j events).flatMap (·.taken)
    ∃ pool, r.engine.pools[e.pools.length + j]? = some pool ∧
      planned = taken ++ pool.queue ++ job.unsent ∧ pool.queue.length ≤ 1 ∧
      (pool.queue ≠ [] → pool.quit = true ∨ r.engine.closing.stops = true) ∧
      job.report.rangesSent = taken.length + pool.queue.length ∧
      job.report.rangesUnsent = planned.length - taken.length - pool.queue.length ∧
      (job.report.rangesSent = taken.length ∧
        job.report.rangesUnsent = planned.length - taken.length ↔ pool.queue = []) ∧
      ∀ w range, r.engine.step (.pool (e.pools.length + j) (.take w range)) = none := by
  intro planned taken
  have hkept := MigrationRun.kept_of_run hrun
  have hjob := hkept.jobs j job hj
  obtain ⟨p, earlier, hengine⟩ := hkept.reachable he
  obtain ⟨pool, hpool, -, hcapacity, hhistory, hdone⟩ := hjob.history
  have hplanned : planned = taken ++ pool.queue ++ job.unsent := by
    rw [← hhistory.sent]
    exact hjob.planned
  have hlength := congrArg List.length hplanned
  rw [List.length_append, List.length_append] at hlength
  have hsent : job.report.rangesSent = taken.length + pool.queue.length := by
    rw [← List.length_append, ← hhistory.sent]
    exact hjob.sent
  have hunsent : job.report.rangesUnsent = job.unsent.length := rfl
  have hexited := hhistory.exited_of_done (hdone hcomplete)
  refine ⟨pool, hpool, hplanned, hhistory.length_queue_le 1 hcapacity, fun hleft => ?_, hsent, ?_,
    ⟨fun h => ?_, fun h => ?_⟩, Engine.step_take_eq_none hpool hexited⟩
  · have hmem := hhistory.mem_exited_of_done (hdone hcomplete)
    rcases Engine.stop_or_drained hengine hpool hmem with hstop | hdrained
    · exact hstop
    · exact absurd hdrained.2 hleft
  · omega
  · exact List.length_eq_zero_iff.mp (by omega)
  · have hzero := List.length_eq_zero_iff.mpr h
    omega

/-! ### A run that is stopped -/

/-- Three ranges, and gap files in the working directory. -/
def threeRanges : RunSetting where
  ranges := [lowHeights, highHeights, ⟨10, 12, by decide, by decide⟩]
  readGapsDir := ""
  writeGapsDir := ""
  seconds := 0

/-- The engine is closed while the only worker reads the first range and the second one waits. -/
def stoppedRun : List RunEvent :=
  [.startTable, .supply 0 lowHeights, .engine (.pool 0 (.look 0)),
    .engine (.pool 0 (.take 0 lowHeights)), .supply 0 highHeights, .engine .mark, .engine .signal,
    .engine (.pool 0 (.read 0 lowHeights (.ok ⟨.logs, []⟩))), .engine (.pool 0 (.exit 0)),
    .engine (.pool 0 .finish), .endSupply 0, .complete 0]

/-- A run of one table with one worker. -/
def logsWaiting : MigrationRun := .begin threeRanges (.fresh ⟨1, [], false⟩) ⟨[], []⟩ [.logs]

/-- The run with the table started. -/
def logsStarted : MigrationRun where
  setting := threeRanges
  engine := ((Engine.fresh ⟨1, [], false⟩).migrate .logs (some 1)).2
  files := ⟨[], [(["log_cids_0"], .file .empty)]⟩
  waiting := []
  jobs :=
    [⟨.logs, 0, ⟨["log_cids_0"]⟩, ⟨["log_cids_0"]⟩, threeRanges.ranges, 0, true, [], [], 0, false⟩]

theorem startTable_logsWaiting : logsWaiting.step .startTable = some logsStarted := by
  have hdirectory : ∀ kind, FileTree.components (threeRanges.gapsDir kind) = [] := by
    rintro (_ | _) <;> exact FileTree.components_empty
  have hplace : ∀ kind, gapPlace threeRanges ⟨[], []⟩ .logs kind = ["log_cids_0"] := by
    intro kind
    rw [gapPlace_of_components_eq_nil (hdirectory kind)]
    cases kind <;> decide +kernel
  have hopen := run_openGapFiles threeRanges .logs ⟨[], []⟩ hdirectory
    ⟨by decide +kernel, by rintro (_ | _) <;> decide +kernel⟩ fun kind => by rw [hplace]; rfl
  simp only [hplace, ↓reduceIte] at hopen
  have hstarted := MigrationRun.startTable_of_open (r := logsWaiting) hopen []
  exact congrArg some hstarted

theorem run_stoppedRun : logsWaiting.run? stoppedRun = logsStarted.run? stoppedRun.tail := by
  rw [stoppedRun, MigrationRun.run?, startTable_logsWaiting]
  rfl

/-- **A range that waits when the pool is stopped counts as sent**: one range is read and two of
three remain, but the report tells of two ranges sent and one unsent. -/
theorem stoppedRun_counts :
    ∃ r job, logsWaiting.run? stoppedRun = some r ∧ r.jobs[0]? = some job ∧ job.complete = true ∧
      ((jobMoves 0 0 stoppedRun).flatMap (·.taken)).length = 1 ∧
      (job.table.planned threeRanges.ranges).length = 3 ∧
      job.report.rangesSent = 2 ∧ job.report.rangesUnsent = 1 := by
  rw [run_stoppedRun]
  exact ⟨_, _, rfl, rfl, rfl, rfl, rfl, rfl, rfl⟩

/-- The range that waits is the one that is counted too much. -/
theorem stoppedRun_report :
    ∃ r job, logsWaiting.run? stoppedRun = some r ∧ r.jobs[0]? = some job ∧ job.complete = true ∧
      ∃ pool, r.engine.pools[0]? = some pool ∧
        pool.queue = [highHeights] ∧
        job.report.rangesSent =
          ((jobMoves 0 0 stoppedRun).flatMap (·.taken)).length + pool.queue.length := by
  have hqueue : (logsWaiting.run? stoppedRun).bind (fun r => r.engine.pools[0]?.map (·.queue)) =
      some [highHeights] := by
    rw [run_stoppedRun]
    rfl
  obtain ⟨r, job, hrun, hj, hcomplete⟩ : ∃ r job, logsWaiting.run? stoppedRun = some r ∧
      r.jobs[0]? = some job ∧ job.complete = true := by
    rw [run_stoppedRun]
    exact ⟨_, _, rfl, rfl, rfl⟩
  obtain ⟨pool, hpool, -, -, -, hsent, -⟩ := report_of_complete ⟨_, [], rfl⟩ hrun hj hcomplete
  refine ⟨r, job, hrun, hj, hcomplete, pool, hpool, ?_, hsent⟩
  rw [hrun, Option.bind_some, show r.engine.pools[0]? = some pool from hpool] at hqueue
  exact Option.some.inj hqueue

end ChainMigration
