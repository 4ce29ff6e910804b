import ChainMigration.Proofs.PoolWork
import ChainMigration.Proofs.RunProgress
import ChainMigration.Proofs.SupplyCount

/-! # What a run has done in the end

A run that is over has a report for each of its tables, in order (`MigrationRun.tables_of_run`). If
no one told its workers to stop (`MigrationRun.Unstopped`), a supplier ends only when it has sent
all its ranges, and workers exit only when they have taken them; so every planned range has been
read once (`MigrationRun.Unstopped.planned`). Together with the progress of runs this is
`MigrationRun.run_to_end`. -/

namespace ChainMigration

variable {s : RunSetting} {e after : Engine} {ev : Event} {ends : Endpoints} {files : FileTree}
  {tables : List Table} {r next : MigrationRun} {event : RunEvent} {events : List RunEvent}
  {pool : Pool} {job : TableJob} {i j : Nat}

/-! ### Tables -/

theorem TableJob.tables_set {jobs : List TableJob} {job' : TableJob} (hi : jobs[i]? = some job)
    (htable : job'.table = job.table) : (jobs.set i job').map (·.table) = jobs.map (·.table) := by
  rw [List.map_set, htable]
  refine List.ext_getElem? fun k => ?_
  by_cases hik : i = k
  · subst hik
    rw [List.getElem?_set_self', List.getElem?_map, hi]
    rfl
  · rw [List.getElem?_set_ne hik]

/-- A table that has heights is planned in all ranges, any other one in the first. -/
theorem Table.planned_eq (t : Table) (ranges : List BlockRange) :
    t.planned ranges = if t.heightSegmented then ranges else ranges.take 1 := by
  cases t <;> rfl

namespace MigrationRun

/-- The gap files of the next table can be opened. -/
def OpensGapFiles (r : MigrationRun) : Prop :=
  ∀ t rest, r.waiting = t :: rest →
    ∃ opened files, (openGapFiles r.setting t).run.run r.files = (.ok opened, files)

theorem opensGapFiles_of_run (hwaiting : r.waiting = []) (hrun : r.run? events = some next) :
    next.OpensGapFiles := by
  induction events generalizing r with
  | nil =>
    cases hrun
    intro t rest hcons
    cases hwaiting.symm.trans hcons
  | cons event events ih =>
    obtain ⟨between, hstep, hrest⟩ := Option.bind_eq_some_iff.mp hrun
    refine ih ?_ hrest
    cases Step.of_step hstep with
    | startTable hcons => cases hwaiting.symm.trans hcons
    | _ => exact hwaiting

theorem opensGapFiles_of_startTable (h : r.step .startTable = some next)
    (hfailure : next.failure = none) : r.OpensGapFiles := by
  intro t rest hwaiting
  rw [step, hwaiting] at h
  cases h
  unfold startTable at hfailure
  split at hfailure
  · cases hfailure
  · next readFile writeFile files hopen => exact ⟨(readFile, writeFile), files, hopen⟩

theorem startTable_of_opens {t : Table} {rest : List Table} (h : r.OpensGapFiles)
    (hwaiting : r.waiting = t :: rest) :
    (r.startTable t rest).failure = r.failure := by
  obtain ⟨⟨readFile, writeFile⟩, files, hopen⟩ := h t rest hwaiting
  rw [startTable_of_open hopen]

theorem failure_of_step (h : r.step event = some next) (hopens : r.OpensGapFiles) :
    next.failure = r.failure := by
  cases Step.of_step h with
  | startTable hwaiting => exact startTable_of_opens hopens hwaiting
  | _ => rfl

theorem tables_of_step (h : r.step event = some next) (hopens : r.OpensGapFiles) :
    next.jobs.map (·.table) ++ next.waiting = r.jobs.map (·.table) ++ r.waiting := by
  cases Step.of_step h with
  | @startTable t rest hwaiting =>
    obtain ⟨⟨readFile, writeFile⟩, files, hopen⟩ := hopens t rest hwaiting
    rw [startTable_of_open hopen, hwaiting, List.map_append, List.append_assoc]
    rfl
  | engine => rfl
  | supply hi => exact congrArg (· ++ r.waiting) (TableJob.tables_set hi rfl)
  | endSupply hi => exact congrArg (· ++ r.waiting) (TableJob.tables_set hi rfl)
  | @receive _ job receipt _ hi =>
    exact congrArg (· ++ r.waiting) (TableJob.tables_set hi (job.notes_receive receipt).table)
  | complete hi => exact congrArg (· ++ r.waiting) (TableJob.tables_set hi rfl)

/-- **A run keeps its tables**, as long as gap files can be opened. -/
theorem tables_of_run (hrun : (begin s e files tables).run? events = some r)
    (hopens : ∀ early before, early <+: events →
      (begin s e files tables).run? early = some before → before.OpensGapFiles) :
    r.failure = none ∧ r.jobs.map (·.table) ++ r.waiting = tables := by
  refine run_induction (P := fun events r => (∀ early before, early <+: events →
    (begin s e files tables).run? early = some before → before.OpensGapFiles) →
      r.failure = none ∧ r.jobs.map (·.table) ++ r.waiting = tables)
    (fun _ => ⟨rfl, rfl⟩) ?_ hrun hopens
  intro events event before after hbefore hstep ih hopens
  have hprefix : events <+: events ++ [event] := List.prefix_append _ _
  obtain ⟨hfailure, htables⟩ :=
    ih fun early before hearly => hopens early before (hearly.trans hprefix)
  have hopen := hopens events before hprefix hbefore
  exact ⟨(failure_of_step hstep hopen).trans hfailure,
    (tables_of_step hstep hopen).trans htables⟩

end MigrationRun

/-! ### Runs that no one stops -/

theorem Engine.quit_of_not_isOrder (h : e.step ev = some after) (hev : ev.isOrder = false)
    (hquit : ∀ pool, e.pools[i]? = some pool → pool.quit = false) (pool : Pool)
    (hpool : after.pools[i]? = some pool) : pool.quit = false := by
  rcases pool_of_step h i with ⟨-, heq⟩ | ⟨-, -, t, capacity, -, hi'⟩ |
    ⟨move, pool', next, rfl, hi, hi', hmove⟩
  · exact hquit pool (heq ▸ hpool)
  · rw [hi'] at hpool
    cases hpool
    rfl
  · rw [hi'] at hpool
    cases hpool
    have hmove' : move ≠ .quit := by
      rintro rfl
      cases hev
    rw [hmove.quit_eq hmove', hquit pool' hi]

namespace MigrationRun

/-- No worker of a run was told to stop. Then a supplier that has ended has sent all its ranges. -/
structure Unstopped (found : Nat) (r : MigrationRun) : Prop where
  stops : r.engine.closing.stops = false
  quit : ∀ j pool, r.engine.pools[found + j]? = some pool → pool.quit = false
  unsent : ∀ (j : Nat) (job : TableJob), r.jobs[j]? = some job → job.supplying = false →
    job.unsent = []

namespace Unstopped

variable {found : Nat}

theorem unsent_set (hu : r.Unstopped found) {job' : TableJob}
    (hjob : job'.supplying = false → job'.unsent = []) (j : Nat) (job : TableJob)
    (hj : (r.jobs.set i job')[j]? = some job) (hended : job.supplying = false) :
    job.unsent = [] := by
  by_cases hij : i = j
  · subst hij
    rw [List.getElem?_set] at hj
    obtain ⟨-, ⟨⟩⟩ := Option.ite_none_right_eq_some.mp (if_pos rfl ▸ hj)
    exact hjob hended
  · rw [List.getElem?_set_ne hij] at hj
    exact hu.unsent j job hj hended

theorem of_engine (hu : r.Unstopped found) (h : r.engine.step ev = some next.engine)
    (hev : ev.isOrder = false)
    (hunsent : ∀ (j : Nat) (job : TableJob), next.jobs[j]? = some job → job.supplying = false →
      job.unsent = []) : next.Unstopped found where
  stops := Engine.stops_of_not_isOrder h hev hu.stops
  quit j := Engine.quit_of_not_isOrder h hev (hu.quit j)
  unsent := hunsent

/-- A supplier ends before its ranges do only if the pool was stopped. -/
theorem unsent_of_mayEndSupply (hu : r.Unstopped e.pools.length) (he : e.Reachable)
    (hr : r.Kept e s events) (hi : r.jobs[i]? = some job) (hmay : r.mayEndSupply job = true)
    (hsupplying : job.supplying = true) : job.unsent = [] := by
  have hjob := hr.jobs i job hi
  obtain ⟨p, earlier, hengine⟩ := hr.reachable he
  obtain ⟨pool, hpool, -, -, hhistory, -⟩ := hjob.history
  have hended : pool.ended = false := by
    rwa [(hjob.ended pool hpool).1, Bool.not_eq_true'] at hsupplying
  rw [mayEndSupply, hjob.pool_eq, hpool, Option.any_some, Pool.isOpen, hended, Bool.not_false,
    Bool.true_and, Bool.not_not, Bool.or_eq_true, List.isEmpty_iff] at hmay
  refine hmay.resolve_right fun hexited => ?_
  rcases Engine.stop_or_drained hengine hpool (hhistory.mem_exited hexited) with hstop | hdrained
  · rw [hu.quit i pool hpool, hu.stops] at hstop
    exact absurd hstop (by decide)
  · rw [hended] at hdrained
    cases hdrained.1

theorem step (hu : r.Unstopped e.pools.length) (he : e.Reachable) (hr : r.Kept e s events)
    (h : r.step event = some next) (hevent : event.isOrder = false) :
    next.Unstopped e.pools.length := by
  cases Step.of_step h with
  | @startTable t rest =>
    unfold MigrationRun.startTable
    split
    · exact ⟨hu.stops, hu.quit, hu.unsent⟩
    · obtain ⟨hpools, -, hclosing⟩ := r.engine.pools_migrate t (some 1)
      refine ⟨?_, fun j pool hpool => ?_, fun j job hj hended => ?_⟩
      · exact (congrArg Closing.stops hclosing).trans hu.stops
      · rw [hpools, List.getElem?_append] at hpool
        split at hpool
        · exact hu.quit j pool hpool
        · rw [List.getElem?_singleton] at hpool
          obtain ⟨-, ⟨⟩⟩ := Option.ite_none_right_eq_some.mp hpool
          rfl
      · rw [List.getElem?_append] at hj
        split at hj
        · exact hu.unsent j job hj hended
        · rw [List.getElem?_singleton] at hj
          obtain ⟨-, ⟨⟩⟩ := Option.ite_none_right_eq_some.mp hj
          cases hended
  | engine _ hstep => exact hu.of_engine hstep hevent hu.unsent
  | supply hi _ hsupplying hstep =>
    refine hu.of_engine hstep rfl (hu.unsent_set fun hended => ?_)
    cases hsupplying.symm.trans hended
  | endSupply hi hsupplying hmay hstep =>
    have hunsent := hu.unsent_of_mayEndSupply he hr hi hmay hsupplying
    exact hu.of_engine hstep rfl (hu.unsent_set fun _ => hunsent)
  | @receive i job receipt _ hi hstep =>
    have hunsent : (job.receive receipt).supplying = false → (job.receive receipt).unsent = [] := by
      have hjob := hu.unsent i job hi
      cases receipt <;> exact hjob
    refine hu.of_engine hstep ?_ (hu.unsent_set hunsent)
    cases receipt <;> rfl
  | @complete i job hi =>
    have hunsent := hu.unsent i job hi
    exact ⟨hu.stops, hu.quit, hu.unsent_set hunsent⟩

/-- **All planned ranges are read** where no worker is told to stop: when a table is complete, each
range was taken, in order, and read once. -/
theorem planned (hu : r.Unstopped e.pools.length) (he : e.Reachable) (hr : r.Kept e s events)
    (hj : r.jobs[j]? = some job) (hcomplete : job.complete = true) :
    (jobMoves e.pools.length j events).flatMap (·.taken) = job.table.planned s.ranges ∧
      ((jobMoves e.pools.length j events).flatMap (·.answered)).Perm
        (job.table.planned s.ranges) ∧
      job.sent = (job.table.planned s.ranges).length ∧ job.unsent = [] := by
  have hjob := hr.jobs j job hj
  obtain ⟨p, earlier, hengine⟩ := hr.reachable he
  obtain ⟨pool, hpool, -, -, hhistory, hdone⟩ := hjob.history
  have hexited := hhistory.exited_of_done (hdone hcomplete)
  have hdrained : pool.ended = true ∧ pool.queue = [] := by
    refine (Engine.stop_or_drained hengine hpool (hhistory.mem_exited hexited)).resolve_left ?_
    rw [hu.quit j pool hpool, hu.stops]
    decide
  have hunsent : job.unsent = [] := by
    refine hu.unsent j job hj ?_
    rw [(hjob.ended pool hpool).1, hdrained.1]
    rfl
  have hplanned := hjob.planned
  rw [hunsent, List.append_nil] at hplanned
  have hasking : pool.workers.flatMap Worker.asking = [] := by
    refine List.flatMap_eq_nil_iff.mpr fun w hw => ?_
    rw [decide_eq_true_iff.mp (List.all_eq_true.mp hexited w hw)]
    rfl
  have htaken := hhistory.sent
  rw [hdrained.2, List.append_nil] at htaken
  have hanswered := hhistory.perm_answered
  rw [hasking, List.append_nil, ← htaken, ← hplanned] at hanswered
  exact ⟨htaken.symm.trans hplanned.symm, hanswered, hplanned ▸ hjob.sent, hunsent⟩

/-- A run to which no order came from outside is not stopped. -/
theorem of_run (he : e.Reachable) (hstops : e.closing.stops = false)
    (hrun : (begin s e files tables).run? events = some r)
    (horders : ∀ event ∈ events, event.isOrder = false) : r.Unstopped e.pools.length := by
  refine run_induction (P := fun events r => (∀ event ∈ events, event.isOrder = false) →
    r.Unstopped e.pools.length) ?_ ?_ hrun horders
  · refine fun _ => ⟨hstops, fun j pool hpool => ?_, nofun⟩
    rw [begin, List.getElem?_eq_none (Nat.le_add_right _ _)] at hpool
    cases hpool
  · intro events event before after hbefore hstep ih horders
    rw [List.forall_mem_append, List.forall_mem_singleton] at horders
    exact (ih horders.1).step he (kept_of_run hbefore) hstep horders.2

end Unstopped

/-! ### The end -/

theorem isOver_iff (h : r.failure = none) :
    r.isOver = true ↔ r.waiting = [] ∧ ∀ job ∈ r.jobs, job.complete = true := by
  rw [isOver, h, Option.isSome_none, Bool.false_or, Bool.and_eq_true, List.isEmpty_iff,
    List.all_eq_true]

theorem result_eq_ok {reports : List TableReport} :
    r.result = .ok reports ↔ r.failure = none ∧ r.jobs.map (·.report) = reports := by
  rw [result]
  split
  · next hfailure =>
    rw [hfailure]
    exact iff_of_false nofun nofun
  · next hfailure =>
    rw [hfailure, Except.ok.injEq]
    exact (and_iff_right rfl).symm

/-- **A run neither deadlocks nor leaves work behind**, for any tables, ranges, number of workers
and order of events, if its gap files can be opened. As long as it is not over, something can happen
to it without an order from outside. It comes to an end whatever happens. In the end there is a
report for each table, in order; and if no order came from outside, the planned ranges of each table
have been read, each once, and its report tells so. -/
theorem run_to_end (he : e.Reachable) (ends : Endpoints)
    (hrun : (begin s e files tables).run? events = some r)
    (hopens : ∀ early before, early <+: events →
      (begin s e files tables).run? early = some before → before.OpensGapFiles) :
    (r.isOver = false → ∃ event next, r.next? ends.replies = some event ∧
      event.isOrder = false ∧ r.step event = some next) ∧
    (∀ future : Nat → RunEvent, ∃ n, r.run? ((List.range n).map future) = none) ∧
    (r.isOver = true → ∃ reports, r.result = .ok reports ∧ reports.map (·.table) = tables ∧
      (e.closing.stops = false → (∀ event ∈ events, event.isOrder = false) →
        ∀ j report, reports[j]? = some report →
          let reads := (jobMoves e.pools.length j events).flatMap (·.answered)
          let planned := if report.table.heightSegmented then s.ranges else s.ranges.take 1
          reads.Perm planned ∧ report.rangesSent = planned.length ∧ report.rangesUnsent = 0)) := by
  have hkept := kept_of_run hrun
  obtain ⟨hfailure, htables⟩ := tables_of_run hrun hopens
  refine ⟨fun hover => ?_, r.exists_run?_eq_none, fun hover => ?_⟩
  · rw [Bool.eq_false_iff, ne_eq, isOver_iff hfailure] at hover
    cases hnext : r.next? ends.replies with
    | none => exact absurd (complete_of_next? he hkept hnext) hover
    | some event =>
      obtain ⟨⟨next, hstep⟩, horder⟩ := possible_of_next? hkept hnext
      exact ⟨event, next, rfl, horder, hstep⟩
  · obtain ⟨hwaiting, hcomplete⟩ := (isOver_iff hfailure).mp hover
    refine ⟨r.jobs.map (·.report), ?_, ?_, fun hstops horders j report hj => ?_⟩
    · rw [result, hfailure]
    · rw [hwaiting, List.append_nil] at htables
      rw [List.map_map]
      exact htables
    · rw [List.getElem?_map, Option.map_eq_some_iff] at hj
      obtain ⟨job, hj, rfl⟩ := hj
      have hu := Unstopped.of_run he hstops hrun horders
      obtain ⟨-, hanswered, hsent, hunsent⟩ :=
        hu.planned he hkept hj (hcomplete job (List.mem_of_getElem? hj))
      rw [Table.planned_eq] at hanswered hsent
      exact ⟨hanswered, hsent, congrArg List.length hunsent⟩

end MigrationRun

/-! ### A run that no one stops -/

/-- The third of three ranges. -/
def lastHeights : BlockRange := threeRanges.ranges.get ⟨2, by decide⟩

/-- The only worker reads three ranges, the second one in vain. -/
def threeReads : List RunEvent :=
  [.startTable, .supply 0 lowHeights, .engine (.pool 0 (.look 0)),
    .engine (.pool 0 (.take 0 lowHeights)), .supply 0 highHeights,
    .engine (.pool 0 (.read 0 lowHeights (.ok ⟨.logs, []⟩))), .engine (.pool 0 (.look 0)),
    .engine (.pool 0 (.take 0 highHeights)), .supply 0 lastHeights, .endSupply 0,
    .engine (.pool 0 (.read 0 highHeights (.error .cancelled))),
    .engine (.pool 0 (.tell 0 (.failure .cancelled))), .engine (.pool 0 (.look 0)),
    .engine (.pool 0 (.take 0 lastHeights)), .receive 0 (.failure .cancelled),
    .engine (.pool 0 (.read 0 lastHeights (.ok ⟨.logs, []⟩))), .engine (.pool 0 (.look 0)),
    .engine (.pool 0 (.exit 0)), .engine (.pool 0 .finish), .complete 0]

theorem opensGapFiles_threeReads (early : List RunEvent) (before : MigrationRun)
    (hearly : early <+: threeReads) (hrun : logsWaiting.run? early = some before) :
    before.OpensGapFiles := by
  cases early with
  | nil =>
    cases hrun
    exact MigrationRun.opensGapFiles_of_startTable startTable_logsWaiting rfl
  | cons event early =>
    obtain ⟨rfl, -⟩ := List.cons_prefix_cons.mp hearly
    rw [MigrationRun.run?, startTable_logsWaiting] at hrun
    exact MigrationRun.opensGapFiles_of_run rfl hrun

theorem run_threeReads :
    ∃ r report, logsWaiting.run? threeReads = some r ∧ r.isOver = true ∧
      r.result = .ok [report] ∧ report.table = .logs ∧ report.hasGaps = false := by
  have hstarted : logsWaiting.run? threeReads = logsStarted.run? threeReads.tail := by
    rw [threeReads, MigrationRun.run?, startTable_logsWaiting, Option.bind_some, List.tail_cons]
  rw [hstarted]
  exact ⟨_, _, rfl, rfl, rfl, rfl, rfl⟩

/-- All three ranges are read, and the report tells so. -/
theorem threeReads_reported :
    ∃ r reports, logsWaiting.run? threeReads = some r ∧ r.result = .ok reports ∧
      reports.map (·.table) = [.logs] ∧
      ((jobMoves 0 0 threeReads).flatMap (·.answered)).Perm threeRanges.ranges ∧
      ∃ report, reports[0]? = some report ∧ report.rangesSent = 3 ∧ report.rangesUnsent = 0 := by
  obtain ⟨r, report, hrun, hover, hresult, htable, -⟩ := run_threeReads
  have horders : ∀ event ∈ threeReads, event.isOrder = false := by decide
  obtain ⟨-, -, hreports⟩ :=
    MigrationRun.run_to_end ⟨_, [], rfl⟩ brokenAtFour hrun opensGapFiles_threeReads
  obtain ⟨reports, hreports, htables, hcounts⟩ := hreports hover
  cases hresult.symm.trans hreports
  obtain ⟨hreads, hsent, hunsent⟩ := hcounts rfl horders 0 report rfl
  rw [htable] at hreads hsent
  exact ⟨r, [report], hrun, hresult, htables, hreads, report, rfl, hsent, hunsent⟩

end ChainMigration
