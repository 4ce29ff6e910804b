import ChainMigration.Proofs.RunEnd

/-! # Starts that fail

The tables of a run are started one after the other, each with its pool, before the gap files of the
next one are opened. If these cannot be opened the run is over with an error, and no table from
there on ever gets a pool (`MigrationRun.failed_of_run`); but the pools of the tables before go on.
Left alone they read all ranges planned for them (`MigrationRun.exists_rest`), so that a failed
start moves no data only if it failed at the first table or there are no ranges
(`MigrationRun.failed_start`). -/

namespace ChainMigration.MigrationRun

variable {s : RunSetting} {e : Engine} {ends : Endpoints} {replies : Replies} {files : FileTree}
  {tables started rest : List Table} {t : Table} {fault : FileError} {reason : MigrationError}
  {r next first : MigrationRun} {event : RunEvent} {events more : List RunEvent} {job : TableJob}
  {j : Nat}

/-! ### Where a start fails -/

theorem run?_append (r : MigrationRun) (events more : List RunEvent) :
    r.run? (events ++ more) = (r.run? events).bind (·.run? more) := by
  induction events generalizing r with
  | nil => rfl
  | cons event events ih =>
    rw [List.cons_append, run?, run?, Option.bind_assoc]
    exact Option.bind_congr fun next _ => ih next

theorem startTable_of_error {files' : FileTree}
    (h : (openGapFiles r.setting t).run.run r.files = (.error fault, files')) (rest : List Table) :
    r.startTable t rest =
      { r with files := files', waiting := [], failure := some (.file fault) } := by
  rw [startTable, h]

/-- **The start fails at a table** during events: the tables before it are started when its gap
files cannot be opened. -/
def FailsAt (first : MigrationRun) (events : List RunEvent) (started : List Table) (t : Table)
    (fault : FileError) : Prop :=
  ∃ early before rest, early <+: events ∧ first.run? early = some before ∧
    before.waiting = t :: rest ∧ before.jobs.map (·.table) = started ∧
    ((openGapFiles before.setting t).run.run before.files).1 = .error fault

theorem tables_of_other (h : r.step event = some next) (hevent : event ≠ .startTable) :
    next.waiting = r.waiting ∧ next.failure = r.failure ∧
      next.jobs.map (·.table) = r.jobs.map (·.table) := by
  cases Step.of_step h with
  | startTable => exact absurd rfl hevent
  | engine => exact ⟨rfl, rfl, rfl⟩
  | supply hi => exact ⟨rfl, rfl, TableJob.tables_set hi rfl⟩
  | endSupply hi => exact ⟨rfl, rfl, TableJob.tables_set hi rfl⟩
  | @receive _ job receipt _ hi =>
    exact ⟨rfl, rfl, TableJob.tables_set hi (job.notes_receive receipt).table⟩
  | complete hi => exact ⟨rfl, rfl, TableJob.tables_set hi rfl⟩

theorem ne_startTable_of_step (h : r.step event = some next) (hwaiting : r.waiting = []) :
    event ≠ .startTable := by
  rintro rfl
  rw [step, hwaiting] at h
  cases h

theorem tables_of_later (hrun : r.run? events = some next) (hwaiting : r.waiting = []) :
    next.waiting = [] ∧ next.failure = r.failure ∧
      next.jobs.map (·.table) = r.jobs.map (·.table) := by
  refine run_induction (P := fun _ next => next.waiting = [] ∧ next.failure = r.failure ∧
    next.jobs.map (·.table) = r.jobs.map (·.table)) ⟨hwaiting, rfl, rfl⟩ ?_ hrun
  rintro events event before after - hstep ⟨hwaiting, hfailure, htables⟩
  obtain ⟨hwaiting', hfailure', htables'⟩ :=
    tables_of_other hstep (ne_startTable_of_step hstep hwaiting)
  exact ⟨hwaiting'.trans hwaiting, hfailure'.trans hfailure, htables'.trans htables⟩

/-- **The tables of a run**: as long as nothing has failed they are those of its jobs and those that
wait; else they are those of its jobs, the one at which the start failed and the ones behind it. -/
theorem failed_of_run (hrun : (begin s e files tables).run? events = some r) :
    (r.failure = none → r.jobs.map (·.table) ++ r.waiting = tables) ∧
    ∀ reason, r.failure = some reason → r.waiting = [] ∧ ∃ t rest fault,
      tables = r.jobs.map (·.table) ++ t :: rest ∧ reason = .file fault ∧
        FailsAt (begin s e files tables) events (r.jobs.map (·.table)) t fault := by
  refine run_induction (P := fun events r =>
    (r.failure = none → r.jobs.map (·.table) ++ r.waiting = tables) ∧
    ∀ reason, r.failure = some reason → r.waiting = [] ∧ ∃ t rest fault,
      tables = r.jobs.map (·.table) ++ t :: rest ∧ reason = .file fault ∧
        FailsAt (begin s e files tables) events (r.jobs.map (·.table)) t fault)
    ⟨fun _ => rfl, fun _ h => by cases h⟩ ?_ hrun
  rintro events event before after hbefore hstep ⟨hgood, hfailed⟩
  by_cases hevent : event = .startTable
  · subst hevent
    obtain ⟨t, rest, hwaiting, rfl⟩ : ∃ t rest, before.waiting = t :: rest ∧
        after = before.startTable t rest := by
      cases Step.of_step hstep with
      | startTable hwaiting => exact ⟨_, _, hwaiting, rfl⟩
    have hnone : before.failure = none := by
      cases hfailure : before.failure with
      | none => rfl
      | some cause => cases hwaiting.symm.trans (hfailed cause hfailure).1
    have htables := hgood hnone
    rw [hwaiting] at htables
    cases hopen : (openGapFiles before.setting t).run.run before.files with
    | mk opened files' =>
      cases opened with
      | ok gapFiles =>
        rw [startTable_of_open hopen]
        refine ⟨fun _ => ?_, fun reason h => by cases hnone.symm.trans h⟩
        rw [List.map_append, List.append_assoc]
        exact htables
      | error fault =>
        rw [startTable_of_error hopen]
        refine ⟨nofun, fun reason h => ⟨rfl, t, rest, fault, htables.symm, ?_, ?_⟩⟩
        · cases h
          rfl
        · exact ⟨events, before, rest, List.prefix_append _ _, hbefore, hwaiting, rfl,
            congrArg Prod.fst hopen⟩
  · obtain ⟨hwaiting, hfailure, htables⟩ := tables_of_other hstep hevent
    rw [hwaiting, hfailure, htables]
    refine ⟨hgood, fun reason h => ?_⟩
    obtain ⟨hnone, t, rest, fault, hall, hreason, early, there, rest', hearly, hfails⟩ :=
      hfailed reason h
    exact ⟨hnone, t, rest, fault, hall, hreason, early, there, rest',
      hearly.trans (List.prefix_append _ _), hfails⟩

theorem result_eq_error : r.result = .error reason ↔ r.failure = some reason := by
  rw [result]
  cases r.failure with
  | none => exact iff_of_false (by rintro ⟨⟩) (by rintro ⟨⟩)
  | some cause => simp

/-! ### What goes on -/

/-- **A run comes to rest** when it is left alone: nothing more can happen by itself. -/
theorem exists_rest (hr : r.Kept e s events) (replies : Replies) :
    ∃ more later, r.run? more = some later ∧ (∀ event ∈ more, event.isOrder = false) ∧
      later.next? replies = none := by
  have hacc : WellFounded Nearer :=
    (Prod.lex Nat.lt_wfRel (Prod.lex Nat.lt_wfRel Nat.lt_wfRel)).wf
  induction hd : r.distance using hacc.induction generalizing r events with
  | _ d ih =>
    subst hd
    cases hnext : r.next? replies with
    | none => exact ⟨[], r, rfl, List.forall_mem_nil _, hnext⟩
    | some event =>
      obtain ⟨⟨next, hstep⟩, horder⟩ := possible_of_next? hr hnext
      obtain ⟨more, later, hrun, horders, hrest⟩ :=
        ih _ (progress_of_step hstep) (hr.step hstep) rfl
      refine ⟨event :: more, later, ?_, List.forall_mem_cons.mpr ⟨horder, horders⟩, hrest⟩
      rw [run?, hstep]
      exact hrun

theorem answered_eq_nil (hr : r.Kept e s events) (hranges : s.ranges = []) (j : Nat) :
    (jobMoves e.pools.length j events).flatMap (·.answered) = [] := by
  by_cases hj : j < r.jobs.length
  · have hjob := hr.jobs j _ (List.getElem?_eq_getElem hj)
    obtain ⟨pool, -, -, -, hhistory, -⟩ := hjob.history
    have hplanned := hjob.planned
    rw [Table.planned_eq, hranges, List.take_nil, ite_self] at hplanned
    have hsent := (List.append_eq_nil_iff.mp hplanned.symm).1
    rw [hhistory.sent] at hsent
    have hperm := hhistory.perm_answered
    rw [(List.append_eq_nil_iff.mp hsent).1] at hperm
    exact (List.append_eq_nil_iff.mp hperm.eq_nil).1
  · rw [hr.unstarted j (Nat.le_of_not_lt hj)]
    rfl

/-- **A start that fails leaves the pools of the tables before it running.** The run is over with an
error if the gap files of some table cannot be opened. From then on, whatever happens, the tables
before it have one pool each, and the others have none, so that nothing of theirs is read or
written. If no order comes from outside, the run can go on until all ranges that are planned for the
tables before are read. So a failed start moves no data if and only if it failed at the first table
or there are no ranges. -/
theorem failed_start (he : e.Reachable) (ends : Endpoints)
    (hrun : (begin s e files tables).run? events = some r) (hresult : r.result = .error reason) :
    ∃ started t rest fault, tables = started ++ t :: rest ∧ reason = .file fault ∧
      FailsAt (begin s e files tables) events started t fault ∧
      (∀ more later, r.run? more = some later →
        later.result = .error reason ∧
        later.engine.pools.length = e.pools.length + started.length ∧
        (∀ (j : Nat) (table : Table), started[j]? = some table →
          ∃ pool, later.engine.pools[e.pools.length + j]? = some pool ∧ pool.table = table) ∧
        ∀ j, started.length ≤ j → jobMoves e.pools.length j (events ++ more) = []) ∧
      (e.closing.stops = false → (∀ event ∈ events, event.isOrder = false) →
        (∃ more later, r.run? more = some later ∧ ∀ (j : Nat) (table : Table),
          started[j]? = some table →
            ((jobMoves e.pools.length j (events ++ more)).flatMap (·.answered)).Perm
              (table.planned s.ranges)) ∧
        ((∀ more later j, r.run? more = some later →
            (jobMoves e.pools.length j (events ++ more)).flatMap (·.answered) = []) ↔
          started = [] ∨ s.ranges = [])) := by
  have hkept := kept_of_run hrun
  obtain ⟨hwaiting, t, rest, fault, htables, rfl, hfails⟩ :=
    (failed_of_run hrun).2 reason (result_eq_error.mp hresult)
  have hlater (more : List RunEvent) (later : MigrationRun) (hmore : r.run? more = some later) :
      (begin s e files tables).run? (events ++ more) = some later := by
    rw [run?_append, hrun]
    exact hmore
  have hsame (more : List RunEvent) (later : MigrationRun) (hmore : r.run? more = some later) :
      later.jobs.map (·.table) = r.jobs.map (·.table) :=
    (tables_of_later hmore hwaiting).2.2
  have hunstarted (more : List RunEvent) (later : MigrationRun) (hmore : r.run? more = some later)
      (j : Nat) (hj : (r.jobs.map (·.table)).length ≤ j) :
      jobMoves e.pools.length j (events ++ more) = [] := by
    refine (kept_of_run (hlater more later hmore)).unstarted j ?_
    rwa [← hsame more later hmore, List.length_map] at hj
  refine ⟨r.jobs.map (·.table), t, rest, fault, htables, rfl, hfails,
    fun more later hmore => ⟨?_, ?_, fun j table hj => ?_, hunstarted more later hmore⟩,
    fun hstops horders => ?_⟩
  · rw [result_eq_error, (tables_of_later hmore hwaiting).2.1]
    exact result_eq_error.mp hresult
  · rw [(kept_of_run (hlater more later hmore)).length_pools, ← hsame more later hmore,
      List.length_map]
  · rw [← hsame more later hmore, List.getElem?_map, Option.map_eq_some_iff] at hj
    obtain ⟨job, hj, rfl⟩ := hj
    obtain ⟨pool, hpool, htable, -⟩ :=
      ((kept_of_run (hlater more later hmore)).jobs j job hj).history
    exact ⟨pool, hpool, htable⟩
  · -- Left alone, the run completes the tables that are started.
    obtain ⟨more, later, hmore, hrest, hnone⟩ := exists_rest hkept ends.replies
    have hkept' := kept_of_run (hlater more later hmore)
    obtain ⟨-, hcomplete⟩ := complete_of_next? he hkept' hnone
    have hu := Unstopped.of_run he hstops (hlater more later hmore)
      (List.forall_mem_append.mpr ⟨horders, hrest⟩)
    have hreads (j : Nat) (table : Table) (hj : (r.jobs.map (·.table))[j]? = some table) :
        ((jobMoves e.pools.length j (events ++ more)).flatMap (·.answered)).Perm
          (table.planned s.ranges) := by
      rw [← hsame more later hmore, List.getElem?_map, Option.map_eq_some_iff] at hj
      obtain ⟨job, hj, rfl⟩ := hj
      exact (hu.planned he hkept' hj (hcomplete job (List.mem_of_getElem? hj))).2.1
    refine ⟨⟨more, later, hmore, hreads⟩, fun hquiet => ?_, ?_⟩
    · by_contra hneither
      rw [not_or] at hneither
      obtain ⟨table, before, hstarted⟩ := List.exists_cons_of_ne_nil hneither.1
      obtain ⟨range, behind, hranges⟩ := List.exists_cons_of_ne_nil hneither.2
      have hperm := hreads 0 table (by rw [hstarted]; rfl)
      rw [hquiet more later 0 hmore, Table.planned_eq, hranges] at hperm
      have hnil := hperm.symm.eq_nil
      split at hnil <;> cases hnil
    · rintro (hstarted | hranges) more later j hmore
      · rw [hunstarted more later hmore j (by rw [hstarted]; exact Nat.zero_le j)]
        rfl
      · exact answered_eq_nil (kept_of_run (hlater more later hmore)) hranges j

/-! ### A start that fails at the second table -/

/-- A directory has the name of the gap files of headers. -/
def takenName : FileTree := ⟨[], [(["header_cids_0"], .directory)]⟩

/-- A run of logs and headers. -/
def headersTaken : MigrationRun :=
  .begin threeRanges (.fresh ⟨1, [], false⟩) takenName [.logs, .headers]

/-- The run with logs started and headers not. -/
def logsLeft : MigrationRun where
  setting := threeRanges
  engine := ((Engine.fresh ⟨1, [], false⟩).migrate .logs (some 1)).2
  files := ⟨[], [(["header_cids_0"], .directory), (["log_cids_0"], .file .empty)]⟩
  waiting := []
  failure := some (.file .isDirectory)
  jobs :=
    [⟨.logs, 0, ⟨["log_cids_0"]⟩, ⟨["log_cids_0"]⟩, threeRanges.ranges, 0, true, [], [], 0, false⟩]

/-- The run with logs started. -/
def logsStartedBeside : MigrationRun := { logsLeft with
  waiting := [.headers]
  failure := none }

theorem components_threeRanges : ∀ kind, FileTree.components (threeRanges.gapsDir kind) = []
  | .read | .write => FileTree.components_empty

theorem startTable_headersTaken : headersTaken.step .startTable = some logsStartedBeside := by
  have hplace (kind : GapKind) : gapPlace threeRanges takenName .logs kind = ["log_cids_0"] := by
    rw [gapPlace_of_components_eq_nil (components_threeRanges kind)]
    cases kind <;> decide +kernel
  have hopen := run_openGapFiles threeRanges .logs takenName components_threeRanges
    ⟨by decide +kernel, by rintro (_ | _) <;> decide +kernel⟩ fun kind => by rw [hplace]; rfl
  simp only [hplace, ↓reduceIte] at hopen
  exact congrArg some (startTable_of_open (r := headersTaken) hopen [.headers])

theorem openGapFiles_logsStartedBeside :
    (openGapFiles threeRanges .headers).run.run logsStartedBeside.files =
      (.error .isDirectory, logsStartedBeside.files) := by
  have hplace : gapPlace threeRanges logsStartedBeside.files .headers .read =
      ["header_cids_0"] := by
    rw [gapPlace_of_components_eq_nil (components_threeRanges .read)]
    decide +kernel
  exact run_openGapFiles_of_directory (components_threeRanges .read)
    ⟨by decide +kernel, by rintro (_ | _) <;> decide +kernel⟩ (by rw [hplace]; rfl)

theorem startTable_logsStartedBeside : logsStartedBeside.step .startTable = some logsLeft := by
  have hstarted := startTable_of_error (r := logsStartedBeside) openGapFiles_logsStartedBeside []
  exact congrArg some hstarted

theorem run_headersTaken : headersTaken.run? [.startTable, .startTable] = some logsLeft := by
  rw [run?, startTable_headersTaken, Option.bind_some, run?, startTable_logsStartedBeside]
  rfl

/-- **A start that fails may move data**: headers cannot be started and the run is over with an
error, but then the pool of logs reads a range. -/
theorem headersTaken_reads :
    ∃ r reason more later, headersTaken.run? [.startTable, .startTable] = some r ∧
      r.result = .error reason ∧ r.run? more = some later ∧
      (jobMoves 0 0 more).flatMap (·.answered) = [lowHeights] := by
  refine ⟨logsLeft, .file .isDirectory, [.supply 0 lowHeights, .engine (.pool 0 (.look 0)),
    .engine (.pool 0 (.take 0 lowHeights)),
    .engine (.pool 0 (.read 0 lowHeights (.ok ⟨.logs, []⟩)))], _, run_headersTaken, rfl, rfl, rfl⟩

/-- Left alone, the pool of logs reads all of its ranges; headers never has a pool. -/
theorem headersTaken_completes :
    ∃ r reason more later, headersTaken.run? [.startTable, .startTable] = some r ∧
      r.result = .error reason ∧ r.run? more = some later ∧ later.engine.pools.length = 1 ∧
      ((jobMoves 0 0 ([.startTable, .startTable] ++ more)).flatMap (·.answered)).Perm
        (Table.logs.planned threeRanges.ranges) := by
  obtain ⟨started, t, rest, fault, htables, hreason, hfails, hlater, hleft⟩ :=
    failed_start ⟨_, [], rfl⟩ brokenAtFour run_headersTaken (r := logsLeft) rfl
  obtain ⟨⟨more, later, hmore, hreads⟩, -⟩ := hleft rfl (by decide)
  have hlength : 1 = 0 + started.length := (hlater [] logsLeft rfl).2.1
  obtain ⟨table, rfl⟩ := List.length_eq_one_iff.mp (by omega : started.length = 1)
  cases htables
  exact ⟨logsLeft, .file fault, more, later, run_headersTaken, hreason ▸ rfl, hmore,
    (hlater more later hmore).2.1, hreads 0 .logs rfl⟩

end ChainMigration.MigrationRun
