import ChainMigration.Proofs.Done
import ChainMigration.Proofs.Outcome
import ChainMigration.Proofs.RunEnd
import ChainMigration.Proofs.TransferHistory

/-! # What the exit status tells

A run that ends without being cancelled exits with 3 if its report has gaps and with 0 otherwise.
The gaps of a report are those told in the work on the planned ranges, and its errors are the
failures told there (`MigrationRun.Finished.report`); the failed segments of a transfer are those
that could not be copied. So a transfer exits with 3 exactly if a segment failed. A migration also
exits with 0 if ranges failed but none of them left a gap: then their rows could not be read, in
tables for which the policy does not report this (`exitCode_of_finished`). -/

namespace ChainMigration

variable {ends : Endpoints} {p : Policy} {t : Table} {range : BlockRange} {pool : Pool}
  {moves : List PoolMove} {s : RunSetting} {e : Engine} {files : FileTree} {tables : List Table}
  {events : List RunEvent} {r : MigrationRun} {job : TableJob} {j : Nat}

/-! ### What is told of a range -/

/-- A gap was told in the work on a range. -/
def Outcome.HasGap (o : Outcome) : Prop := ∃ kind, o.gaps kind ≠ []

/-- The rows of a range cannot be read, and the policy does not report this as a gap of the table.
Nothing of the range is migrated then. -/
def FailsSilently (ends : Endpoints) (p : Policy) (t : Table) (range : BlockRange) : Prop :=
  (∃ reason, ends.read t range = .error reason) ∧ p.readFailureGap t = none

theorem notices_of_failsSilently (h : FailsSilently ends p t range) :
    ∃ reason, processRange ends p t range = ⟨none, [.failure reason]⟩ := by
  obtain ⟨⟨reason, hread⟩, hgap⟩ := h
  refine ⟨reason, ?_⟩
  rw [processRange, hread, afterRead, hgap]
  rfl

/-- **What goes wrong leaves a gap or fails silently.** -/
theorem hasGap_or_failsSilently (h : (processRange ends p t range).notices ≠ []) :
    (processRange ends p t range).HasGap ∨ FailsSilently ends p t range := by
  have hworked := worked_processRange ends p t range
  generalize processRange ends p t range = o at h hworked ⊢
  cases hworked with
  | unread hread =>
    cases hgap : p.readFailureGap t with
    | none => exact Or.inr ⟨⟨_, hread⟩, hgap⟩
    | some kind =>
      refine Or.inl ⟨kind, ?_⟩
      rw [Outcome.gaps, filterMap_gap?_readFailure, if_pos rfl]
      exact List.cons_ne_nil _ _
  | empty =>
    split at h
    · next hrequires =>
      refine Or.inl ⟨.read, ?_⟩
      rw [if_pos hrequires]
      exact List.cons_ne_nil _ _
    · exact absurd rfl h
  | rejected => exact Or.inl ⟨.write, List.cons_ne_nil _ _⟩
  | refused => exact Or.inl ⟨.write, List.cons_ne_nil _ _⟩
  | written =>
    refine Or.inl ⟨.read, ?_⟩
    rw [Outcome.gaps, filterMap_gap?_discontinuities, if_pos rfl]
    intro hmissing
    rw [List.map_eq_nil_iff] at hmissing
    exact h (congrArg (List.map _) hmissing)

theorem notices_ne_nil_iff : (processRange ends p t range).notices ≠ [] ↔
    (processRange ends p t range).HasGap ∨ FailsSilently ends p t range := by
  refine ⟨hasGap_or_failsSilently, ?_⟩
  rintro (⟨kind, hgaps⟩ | hsilent) hnil
  · rw [Outcome.gaps, hnil] at hgaps
    exact hgaps rfl
  · obtain ⟨reason, hworked⟩ := notices_of_failsSilently hsilent
    rw [hworked] at hnil
    cases hnil

/-! ### What is told of a table -/

/-- The notice that an effect is. -/
def Effect.notice? : Effect → Option Notice
  | told notice => some notice
  | _ => none

theorem filterMap_notice?_effects (move : PoolMove) :
    move.effects.filterMap Effect.notice? = move.told := by
  cases move with
  | write worker range rows answer =>
    rw [PoolMove.effects]
    split <;> rfl
  | _ => rfl

theorem filterMap_notice?_rangeEffects (ends : Endpoints) (p : Policy) (t : Table)
    (range : BlockRange) :
    (rangeEffects ends p t range).filterMap Effect.notice? =
      (processRange ends p t range).notices := by
  have hwritten : ∀ written : Option NewRows,
      (written.toList.map (Effect.written range)).filterMap Effect.notice? = [] := by
    intro written
    cases written <;> rfl
  rw [rangeEffects, List.filterMap_cons_none rfl, List.filterMap_append, hwritten,
    List.nil_append, List.filterMap_map]
  exact List.filterMap_some

/-- **What the workers have told** once they have exited is what there is to tell of the ranges
taken. -/
theorem Pool.History.perm_told (h : pool.History p moves)
    (hf : ∀ move ∈ moves, move.Follows ends pool.table) (hexited : pool.exited = true) :
    (moves.flatMap (·.told)).Perm ((moves.flatMap (·.taken)).flatMap fun range =>
      (processRange ends p pool.table range).notices) := by
  have heffects := (h.perm_effects hf).filterMap Effect.notice?
  rw [ahead_of_exited hexited, List.append_nil, List.filterMap_flatMap, List.filterMap_flatMap]
    at heffects
  simp only [filterMap_notice?_effects, filterMap_notice?_rangeEffects] at heffects
  exact heffects

namespace MigrationRun

/-- A run that is over and to which no order came from outside. Its gap files could be opened, and
the endpoints answered its calls. -/
structure Finished (ends : Endpoints) (s : RunSetting) (e : Engine) (files : FileTree)
    (tables : List Table) (events : List RunEvent) (r : MigrationRun) : Prop where
  reachable : e.Reachable
  running : e.closing.stops = false
  run : (begin s e files tables).run? events = some r
  opens : ∀ early before, early <+: events →
    (begin s e files tables).run? early = some before → before.OpensGapFiles
  isOver : r.isOver = true
  orders : ∀ event ∈ events, event.isOrder = false
  answers : ∀ (j : Nat) (t : Table), tables[j]? = some t →
    ∀ move ∈ jobMoves e.pools.length j events, move.Follows ends t

namespace Finished

theorem complete (h : Finished ends s e files tables events r) :
    r.failure = none ∧ r.jobs.map (·.table) = tables ∧ ∀ job ∈ r.jobs, job.complete = true := by
  obtain ⟨hfailure, htables⟩ := tables_of_run h.run h.opens
  obtain ⟨hwaiting, hcomplete⟩ := (isOver_iff hfailure).mp h.isOver
  rw [hwaiting, List.append_nil] at htables
  exact ⟨hfailure, htables, hcomplete⟩

/-- What was received of a table is what there is to tell of its planned ranges. -/
theorem perm_received {α : Type} (h : Finished ends s e files tables events r)
    (hj : r.jobs[j]? = some job) (f : Notice → Option α) (received : PoolMove → List α)
    (hreceived : Pool.AllReceived (jobMoves e.pools.length j events) →
      (jobMoves e.pools.length j events).flatMap received =
        (jobMoves e.pools.length j events).flatMap (·.told.filterMap f)) :
    ((jobMoves e.pools.length j events).flatMap received).Perm
      ((job.table.planned s.ranges).flatMap fun range =>
        (processRange ends e.policy job.table range).notices.filterMap f) := by
  obtain ⟨-, htables, hcomplete⟩ := h.complete
  have hkept := kept_of_run h.run
  have hjob := hkept.jobs j job hj
  have hcomplete := hcomplete job (List.mem_of_getElem? hj)
  obtain ⟨pool, hpool, htable, -, hhistory, hdone⟩ := hjob.history
  have hall := hhistory.allReceived ((hjob.ended pool hpool).2 hcomplete)
  have hfollows : ∀ move ∈ jobMoves e.pools.length j events, move.Follows ends pool.table := by
    refine h.answers j pool.table ?_
    rw [← htables, List.getElem?_map, hj, htable]
    rfl
  have hu := Unstopped.of_run h.reachable h.running h.run h.orders
  have htold := hhistory.perm_told hfollows (hhistory.exited_of_done (hdone hcomplete))
  rw [(hu.planned h.reachable hkept hj hcomplete).1, htable] at htold
  rw [hreceived hall, Pool.told_filterMap, ← List.filterMap_flatMap]
  exact htold.filterMap f

/-- **The report of a table** tells of the gaps and counts the failures that there are to tell of
its planned ranges. -/
theorem report (h : Finished ends s e files tables events r) (hj : r.jobs[j]? = some job) :
    let outcomes := (job.table.planned s.ranges).map (processRange ends e.policy job.table)
    job.report.readGaps.Perm (outcomes.flatMap (·.gaps .read)) ∧
      job.report.writeGaps.Perm (outcomes.flatMap (·.gaps .write)) ∧
      job.report.errors = (outcomes.flatMap (·.failures)).length := by
  have hjob := (kept_of_run h.run).jobs j job hj
  intro outcomes
  rw [List.flatMap_map, List.flatMap_map, List.flatMap_map]
  refine ⟨?_, ?_, ?_⟩
  · exact (List.Perm.of_eq hjob.readGaps).trans
      (h.perm_received hj _ _ fun hall => hall.gaps .read)
  · exact (List.Perm.of_eq hjob.writeGaps).trans
      (h.perm_received hj _ _ fun hall => hall.gaps .write)
  · exact hjob.errors.trans (h.perm_received hj _ _ fun hall => hall.failures).length_eq

theorem hasGaps_iff (h : Finished ends s e files tables events r) (hj : r.jobs[j]? = some job) :
    job.report.hasGaps = true ↔ ∃ range ∈ job.table.planned s.ranges,
      (processRange ends e.policy job.table range).HasGap := by
  obtain ⟨hread, hwrite, -⟩ := h.report hj
  have hne : ∀ kind, ((job.table.planned s.ranges).map
      (processRange ends e.policy job.table)).flatMap (·.gaps kind) ≠ [] ↔
      ∃ range ∈ job.table.planned s.ranges,
        (processRange ends e.policy job.table range).gaps kind ≠ [] := by
    intro kind
    rw [List.flatMap_map, ne_eq, List.flatMap_eq_nil_iff]
    simp only [not_forall, exists_prop, ne_eq]
  rw [TableReport.hasGaps, hread.isEmpty_eq, hwrite.isEmpty_eq, Bool.or_eq_true, Bool.not_eq_true',
    Bool.not_eq_true', List.isEmpty_eq_false_iff, List.isEmpty_eq_false_iff, hne, hne]
  constructor
  · rintro (⟨range, hmem, hgaps⟩ | ⟨range, hmem, hgaps⟩)
    · exact ⟨range, hmem, .read, hgaps⟩
    · exact ⟨range, hmem, .write, hgaps⟩
  · rintro ⟨range, hmem, kind, hgaps⟩
    cases kind with
    | read => exact Or.inl ⟨range, hmem, hgaps⟩
    | write => exact Or.inr ⟨range, hmem, hgaps⟩

theorem hasGaps_report_iff (h : Finished ends s e files tables events r) (report : RunReport) :
    RunReport.hasGaps { report with tables := r.jobs.map (·.report), transfer := none } = true ↔
      ∃ t ∈ tables, ∃ range ∈ t.planned s.ranges,
        (processRange ends e.policy t range).HasGap := by
  obtain ⟨-, htables, -⟩ := h.complete
  rw [RunReport.hasGaps, Option.any_none, Bool.or_false, List.any_map, List.any_eq_true]
  constructor
  · rintro ⟨job, hmem, hjob⟩
    obtain ⟨j, hj⟩ := List.mem_iff_getElem?.mp hmem
    exact ⟨job.table, htables ▸ List.mem_map_of_mem hmem, (h.hasGaps_iff hj).mp hjob⟩
  · rintro ⟨t, hmem, hgap⟩
    rw [← htables, List.mem_map] at hmem
    obtain ⟨job, hmem, rfl⟩ := hmem
    obtain ⟨j, hj⟩ := List.mem_iff_getElem?.mp hmem
    exact ⟨job, hmem, (h.hasGaps_iff hj).mpr hgap⟩

end Finished

end MigrationRun

/-- A transfer run that is complete and to which no order came from outside. The endpoints answered
its copies. -/
structure TransferRun.Finished (ends : Endpoints) (c : TransferConfig) (e : Engine)
    (gapFile : GapFile) (files : FileTree) (events : List TransferEvent) (r : TransferRun) :
    Prop where
  running : e.closing.stops = false
  run : ∃ first, begin c ends.lastPage e gapFile files = .ok first ∧ first.run? events = some r
  complete : r.complete = true
  orders : ∀ event ∈ events, event.isOrder = false
  answers : ∀ move ∈ transferMoves e.transfers.length events, move.Follows ends c.tableName

namespace TransferRun.Finished

variable {c : TransferConfig} {gapFile : GapFile} {events : List TransferEvent} {r : TransferRun}

/-- **The report of a transfer** tells of the segments that could not be copied. -/
theorem failed (h : Finished ends c e gapFile files events r) :
    ∃ segments, c.segments ends.lastPage = .ok segments ∧
      r.report.failed = segments.filter (ends.copyFails c.tableName) := by
  obtain ⟨first, hbegin, hrun⟩ := h.run
  obtain ⟨segments, hsegments, hkept, hunstopped⟩ := kept_of_begin hbegin
  have hu := (hunstopped h.running).run hrun h.orders
  exact ⟨segments, hsegments, failed_of_complete (hkept.run hrun) hu h.complete h.answers⟩

theorem hasGaps_report_iff (h : Finished ends c e gapFile files events r) (report : RunReport) :
    ∃ segments, c.segments ends.lastPage = .ok segments ∧
      (RunReport.hasGaps { report with tables := [], transfer := some r.report } = true ↔
        ∃ pages ∈ segments, ends.copyFails c.tableName pages = true) := by
  obtain ⟨segments, hsegments, hfailed⟩ := h.failed
  refine ⟨segments, hsegments, ?_⟩
  rw [RunReport.hasGaps, List.any_nil, Bool.false_or, Option.any_some, hfailed,
    Bool.not_eq_true', List.isEmpty_eq_false_iff, ne_eq, List.filter_eq_nil_iff]
  simp only [not_forall, exists_prop, not_not]

end TransferRun.Finished

/-! ### The exit status -/

theorem RunReport.exitCode_finish (report : RunReport) (now : Timestamp) :
    (report.finish false now).exitCode = if report.hasGaps then 3 else 0 := by
  have hstatus : (report.finish false now).status ≠ .cancelled := by
    rw [finish, finalStatus, if_neg (by decide)]
    split <;> exact nofun
  exact if_neg hstatus

/-- **What the exit status tells** of a run that no one stopped. A migration exits with 3 if there
is a gap to tell of a planned range, and with 0 otherwise. Whatever goes wrong with a range leaves a
gap or fails silently; so the exit status tells whether anything went wrong unless ranges failed
silently and no other range left a gap. A transfer exits with 3 if a segment could not be copied,
and with 0 otherwise. -/
theorem exitCode_of_finished (ends : Endpoints) (report : RunReport) (now : Timestamp) :
    (∀ s e files tables events r, MigrationRun.Finished ends s e files tables events r →
      ∃ reports, r.result = .ok reports ∧
        let code := ({ report with tables := reports, transfer := none }.finish false now).exitCode
        let gap := ∃ t ∈ tables, ∃ range ∈ t.planned s.ranges,
          (processRange ends e.policy t range).HasGap
        let silent := ∃ t ∈ tables, ∃ range ∈ t.planned s.ranges,
          FailsSilently ends e.policy t range
        let wrong := ∃ t ∈ tables, ∃ range ∈ t.planned s.ranges,
          (processRange ends e.policy t range).notices ≠ []
        (code = 3 ∧ gap ∨ code = 0 ∧ ¬ gap) ∧ (wrong ↔ gap ∨ silent) ∧
          ((code = 3 ↔ wrong) ↔ (silent → gap))) ∧
    (∀ c e gapFile files events r, TransferRun.Finished ends c e gapFile files events r →
      ∃ segments, c.segments ends.lastPage = .ok segments ∧
        let code := ({ report with tables := [], transfer := some r.report }.finish
          false now).exitCode
        (code = 3 ↔ ∃ pages ∈ segments, ends.copyFails c.tableName pages = true) ∧
          (code = 0 ↔ ∀ pages ∈ segments, ends.copyFails c.tableName pages = false)) := by
  refine ⟨fun s e files tables events r h => ?_, fun c e gapFile files events r h => ?_⟩
  · obtain ⟨hfailure, -, -⟩ := h.complete
    refine ⟨r.jobs.map (·.report), ?_, ?_⟩
    · rw [MigrationRun.result, hfailure]
    intro code gap silent wrong
    have hwrong : wrong ↔ gap ∨ silent := by
      simp only [wrong, gap, silent, notices_ne_nil_iff, ← exists_or, ← and_or_left]
    have hgaps : _ ↔ gap := h.hasGaps_report_iff report
    have hcode : code = 3 ∧ gap ∨ code = 0 ∧ ¬ gap := by
      simp only [code, RunReport.exitCode_finish, ← hgaps]
      split
      · next hyes => exact Or.inl ⟨rfl, hyes⟩
      · next hno => exact Or.inr ⟨rfl, hno⟩
    refine ⟨hcode, hwrong, ?_⟩
    rw [hwrong]
    rcases hcode with ⟨hcode, hgap⟩ | ⟨hcode, hgap⟩
    · exact ⟨fun _ _ => hgap, fun _ => ⟨fun _ => Or.inl hgap, fun _ => hcode⟩⟩
    · have hzero : code ≠ 3 := by
        rw [hcode]
        decide
      refine ⟨fun heq hsilent => absurd (heq.mpr (Or.inr hsilent)) hzero, fun himp => ?_⟩
      refine ⟨fun hthree => absurd hthree hzero, fun hwrong => ?_⟩
      exact absurd (hwrong.elim id himp) hgap
  · obtain ⟨segments, hsegments, hgaps⟩ := h.hasGaps_report_iff report
    refine ⟨segments, hsegments, ?_⟩
    intro code
    have hnone : (∀ pages ∈ segments, ends.copyFails c.tableName pages = false) ↔
        ¬ ∃ pages ∈ segments, ends.copyFails c.tableName pages = true := by
      simp only [not_exists, not_and, Bool.not_eq_true]
    simp only [code, RunReport.exitCode_finish, hnone, ← hgaps]
    split
    · next hyes => exact ⟨iff_of_true rfl hyes, iff_of_false (by decide) (not_not_intro hyes)⟩
    · next hno => exact ⟨iff_of_false (by decide) hno, iff_of_true rfl hno⟩

/-! ### A range that fails silently -/

theorem finished_threeReads :
    ∃ r report, MigrationRun.Finished brokenAtFour threeRanges (.fresh ⟨1, [], false⟩) ⟨[], []⟩
      [.logs] threeReads r ∧ r.result = .ok [report] ∧ report.hasGaps = false := by
  obtain ⟨r, report, hrun, hover, hresult, -, hgaps⟩ := run_threeReads
  refine ⟨r, report, ⟨⟨_, [], rfl⟩, rfl, hrun, opensGapFiles_threeReads, hover, by decide,
    fun j t ht => ?_⟩, hresult, hgaps⟩
  cases j with
  | zero =>
    cases ht
    simp [jobMoves, threeReads, RunEvent.moveOf, Event.moveOf, PoolMove.Follows, brokenAtFour,
      Receipt.move, Engine.fresh, lowHeights, highHeights, lastHeights, threeRanges]
  | succ j => cases ht

/-- **A range that cannot be read may go without notice**: one of three ranges of logs failed and
nothing of it was migrated, but the exit status is 0. -/
theorem threeReads_exitCode :
    ∃ r reports, MigrationRun.Finished brokenAtFour threeRanges (.fresh ⟨1, [], false⟩) ⟨[], []⟩
      [.logs] threeReads r ∧ r.result = .ok reports ∧
      highHeights ∈ Table.logs.planned threeRanges.ranges ∧
      processRange brokenAtFour ⟨1, [], false⟩ .logs highHeights =
        ⟨none, [.failure .cancelled]⟩ ∧
      ∀ (report : RunReport) (now : Timestamp),
        ({ report with tables := reports, transfer := none }.finish false now).exitCode = 0 := by
  obtain ⟨r, table, hfinished, hresult, hgaps⟩ := finished_threeReads
  refine ⟨r, [table], hfinished, hresult, by decide, rfl, fun report now => ?_⟩
  have hnone : RunReport.hasGaps { report with tables := [table], transfer := none } = false := by
    rw [RunReport.hasGaps, List.any_cons, hgaps]
    rfl
  rw [RunReport.exitCode_finish, hnone]
  rfl

/-- The pages of a transfer in one segment. -/
def sixPages : BlockRange := ⟨0, 5, by decide, by decide⟩

/-- A transfer of six pages. -/
def sixPagesConfig : TransferConfig where
  segmentSize := 10
  maxPage := 5

/-- Endpoints that copy nothing. -/
def noCopies : Endpoints where
  __ := brokenAtFour
  copy _ _ := .error .cancelled

/-- The only segment fails. -/
def failedCopy : List TransferEvent :=
  [.engine (.transfer 0 .look), .engine (.transfer 0 (.start sixPages)),
    .engine (.transfer 0 (.copied sixPages (.error .cancelled))),
    .engine (.transfer 0 (.tell .cancelled)), .receiveFailed sixPages, .receiveFailure .cancelled,
    .engine (.transfer 0 .exit), .engine (.transfer 0 .letGo), .engine (.transfer 0 .finish),
    .complete]

theorem segments_sixPages : sixPagesConfig.segments noCopies.lastPage = .ok [sixPages] := by
  have hcut : segment 10 0 5 = .ok [sixPages] := by
    rw [segment, if_neg (by decide), dif_pos (by decide), segmentFrom]
    rfl
  rw [TransferConfig.segments, if_neg (by decide), if_neg (by decide)]
  dsimp only [sixPagesConfig, bind, Except.bind]
  rw [hcut]
  rfl

theorem finished_failedCopy :
    ∃ r, TransferRun.Finished noCopies sixPagesConfig (.fresh ⟨1, [], false⟩) ⟨[]⟩ ⟨[], []⟩
      failedCopy r := by
  have hbegin : ∃ first, TransferRun.begin sixPagesConfig noCopies.lastPage
      (.fresh ⟨1, [], false⟩) ⟨[]⟩ ⟨[], []⟩ = .ok first ∧
      ∃ r, first.run? failedCopy = some r ∧ r.complete = true := by
    rw [TransferRun.begin, Engine.startTransfer, segments_sixPages]
    exact ⟨_, rfl, _, rfl, rfl⟩
  obtain ⟨first, hbegin, r, hrun, hcomplete⟩ := hbegin
  refine ⟨r, rfl, ⟨first, hbegin, hrun⟩, hcomplete, by decide, ?_⟩
  simp [transferMoves, failedCopy, TransferEvent.moveOf, Event.copyMoveOf, CopyMove.Follows,
    noCopies, Engine.fresh]

/-- The report of a run that begins and ends at once. -/
def shortReport : RunReport := .begin ⟨0⟩ "" "" ⟨0⟩

/-- The exit statuses of the two runs: no gap is told of the three reads, but the failed copy is.
-/
theorem exitCodes_of_runs :
    (∃ r reports, MigrationRun.Finished brokenAtFour threeRanges (.fresh ⟨1, [], false⟩) ⟨[], []⟩
      [.logs] threeReads r ∧ r.result = .ok reports ∧
      ({ shortReport with tables := reports, transfer := none }.finish false ⟨0⟩).exitCode = 0) ∧
    ∃ r, TransferRun.Finished noCopies sixPagesConfig (.fresh ⟨1, [], false⟩) ⟨[]⟩ ⟨[], []⟩
      failedCopy r ∧
      ({ shortReport with tables := [], transfer := some r.report }.finish
        false ⟨0⟩).exitCode = 3 := by
  refine ⟨?_, ?_⟩
  · obtain ⟨r, -, hfinished, -⟩ := finished_threeReads
    obtain ⟨reports, hresult, hcode, -⟩ :=
      (exitCode_of_finished brokenAtFour shortReport ⟨0⟩).1 _ _ _ _ _ _ hfinished
    have hnone : ∀ t ∈ [Table.logs], ∀ range ∈ t.planned threeRanges.ranges,
        (processRange brokenAtFour ⟨1, [], false⟩ t range).gaps .read = [] ∧
          (processRange brokenAtFour ⟨1, [], false⟩ t range).gaps .write = [] := by
      decide +kernel
    refine ⟨r, reports, hfinished, hresult, (hcode.resolve_left ?_).1⟩
    rintro ⟨-, t, ht, range, hrange, kind, hgaps⟩
    cases kind with
    | read => exact hgaps (hnone t ht range hrange).1
    | write => exact hgaps (hnone t ht range hrange).2
  · obtain ⟨r, hfinished⟩ := finished_failedCopy
    obtain ⟨segments, hsegments, hthree, -⟩ :=
      (exitCode_of_finished noCopies shortReport ⟨0⟩).2 _ _ _ _ _ _ hfinished
    cases segments_sixPages.symm.trans hsegments
    exact ⟨r, hfinished, hthree.mpr ⟨sixPages, List.mem_singleton_self _, rfl⟩⟩

end ChainMigration
