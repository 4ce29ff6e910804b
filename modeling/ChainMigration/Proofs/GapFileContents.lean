import ChainMigration.Proofs.Conservation
import ChainMigration.Proofs.Done

/-! # Gap files, reports and pools agree

What a report tells of gaps is what the pool of its table told, and the gap files of the table hold
the records of these gaps behind whatever they held before (`MigrationRun.gapFiles_of_result`).

The collectors of a run write to the same tree of files. What comes into a file is therefore first
laid down for the run as a whole: a file holds the records of the gaps that arrived for it, in the
order of their arrival (`MigrationRun.Filed`). Then the arrivals for a file are divided by jobs and
sides (`Merges`). -/

namespace ChainMigration

variable {s : RunSetting} {e : Engine} {files : FileTree} {tables : List Table} {t : Table}
  {r next : MigrationRun} {event : RunEvent} {events : List RunEvent} {job : TableJob} {i j : Nat}
  {kind : GapKind}

/-! ### Arrivals -/

/-- The gap file of a side. -/
def TableJob.gapFile (job : TableJob) : GapKind → GapFile
  | .read => job.readFile
  | .write => job.writeFile

/-- The gaps of a side in a report. -/
def TableReport.gaps (report : TableReport) : GapKind → List Gap
  | .read => report.readGaps
  | .write => report.writeGaps

/-- A gap that a collector receives. -/
structure Arrival where
  job : Nat
  kind : GapKind
  gap : Gap

/-- The gap that arrives with an event. -/
def RunEvent.arrival : RunEvent → List Arrival
  | receive i (.readGap gap) => [⟨i, .read, gap⟩]
  | receive i (.writeGap gap) => [⟨i, .write, gap⟩]
  | _ => []

/-- The gaps that arrived, in the order of their arrival. -/
def arrivals (events : List RunEvent) : List Arrival := events.flatMap (·.arrival)

/-- The arrival is one of a job and a side. -/
def Arrival.isOf (j : Nat) (kind : GapKind) (a : Arrival) : Bool := a.job = j && a.kind = kind

/-- The arrival is for the gap file in a place. -/
def Arrival.isFor (s : RunSetting) (files : FileTree) (tables : List Table) (place : Location)
    (a : Arrival) : Bool :=
  (tables[a.job]?).any fun t => gapPlace s files t a.kind = place

theorem arrivals_concat (events : List RunEvent) (event : RunEvent) :
    arrivals (events ++ [event]) = arrivals events ++ event.arrival := by
  rw [arrivals, List.flatMap_append, List.flatMap_singleton]
  rfl

theorem MigrationRun.gapReceived_of_step (h : r.step event = some next) (found j : Nat)
    (kind : GapKind) : (event.moveOf found j).flatMap (·.gapReceived kind) =
      (event.arrival.filter (·.isOf j kind)).map (·.gap) := by
  cases Step.of_step h with
  | @engine ev _ hfree =>
    cases ev with
    | pool k move =>
      rw [RunEvent.moveOf, Event.moveOf]
      split
      · cases move with
        | receiveReadGap | receiveWriteGap => cases hfree
        | _ => cases kind <;> rfl
      · rfl
    | _ => rfl
  | @supply i _ range =>
    rw [RunEvent.moveOf]
    split
    · cases kind <;> rfl
    · rfl
  | @endSupply i =>
    rw [RunEvent.moveOf]
    split
    · cases kind <;> rfl
    · rfl
  | @receive i _ receipt =>
    rw [RunEvent.moveOf]
    by_cases hij : i = j
    · rw [if_pos hij, List.flatMap_singleton]
      cases receipt <;> cases kind <;> simp [Receipt.move, PoolMove.gapReceived, RunEvent.arrival,
        Arrival.isOf, hij]
    · rw [if_neg hij]
      cases receipt <;> simp [RunEvent.arrival, Arrival.isOf, hij]
  | _ => rfl

/-- **What a job has noted is what arrived for it**, in order. -/
theorem MigrationRun.gapReceived_of_run (hrun : (begin s e files tables).run? events = some r)
    (found j : Nat) (kind : GapKind) :
    (jobMoves found j events).flatMap (·.gapReceived kind) =
      ((arrivals events).filter (·.isOf j kind)).map (·.gap) := by
  refine run_induction (P := fun events _ =>
    (jobMoves found j events).flatMap (·.gapReceived kind) =
      ((arrivals events).filter (·.isOf j kind)).map (·.gap)) rfl ?_ hrun
  intro events event before after _ hstep ih
  rw [jobMoves_concat, arrivals_concat, List.flatMap_append, List.filter_append, List.map_append,
    ih, gapReceived_of_step hstep]

/-! ### What the files hold -/

/-- The text that comes into the file in a place with some arrivals. -/
def added (s : RunSetting) (files : FileTree) (tables : List Table) (place : Location)
    (news : List Arrival) : String :=
  records ((news.filter (·.isFor s files tables place)).map (·.gap))

theorem added_append (place : Location) (news more : List Arrival) :
    added s files tables place (news ++ more) =
      added s files tables place news ++ added s files tables place more := by
  rw [added, List.filter_append, List.map_append, records_append]
  rfl

namespace MigrationRun

/-- **The files of a run**: each job has its gap files, and every file holds what it held before the
run and the records of the gaps that arrived for it, in the order of their arrival. -/
structure Filed (s : RunSetting) (files : FileTree) (tables : List Table) (events : List RunEvent)
    (r : MigrationRun) : Prop where
  setting : r.setting = s
  workingDirectory : r.files.workingDirectory = files.workingDirectory
  tables_eq : r.failure = none → r.jobs.map (·.table) ++ r.waiting = tables
  waiting : r.failure ≠ none → r.waiting = []
  table : ∀ (j : Nat) (job : TableJob), r.jobs[j]? = some job → tables[j]? = some job.table
  place : ∀ job ∈ r.jobs, ∀ kind, (job.gapFile kind).place = gapPlace s files job.table kind ∧
    r.files.IsFile (job.gapFile kind).place
  contentAt : ∀ place, r.files.contentAt place =
    files.contentAt place ++ (added s files tables place (arrivals events)).toUTF8

namespace Filed

theorem begin (s : RunSetting) (e : Engine) (files : FileTree) (tables : List Table) :
    (MigrationRun.begin s e files tables).Filed s files tables [] where
  setting := rfl
  workingDirectory := rfl
  tables_eq _ := rfl
  waiting h := absurd rfl h
  table := nofun
  place := nofun
  contentAt _ := ByteArray.append_empty.symm

theorem contentAt_concat (hr : r.Filed s files tables events) {after : FileTree} (place : Location)
    (h : after.contentAt place = r.files.contentAt place ++
      (added s files tables place event.arrival).toUTF8) :
    after.contentAt place = files.contentAt place ++
      (added s files tables place (arrivals (events ++ [event]))).toUTF8 := by
  rw [h, hr.contentAt, arrivals_concat, added_append, ByteArray.append_assoc]
  exact congrArg _ (String.toByteArray_append ..).symm

theorem set (hr : r.Filed s files tables events) {job' : TableJob} (hi : r.jobs[i]? = some job)
    (htable : job'.table = job.table) (hfile : job'.gapFile = job.gapFile) :
    { r with jobs := r.jobs.set i job' }.Filed s files tables events where
  setting := hr.setting
  workingDirectory := hr.workingDirectory
  tables_eq h := by
    rw [TableJob.tables_set hi htable]
    exact hr.tables_eq h
  waiting := hr.waiting
  table k job'' hk := by
    by_cases hik : i = k
    · subst hik
      rw [List.getElem?_set_self (List.getElem?_eq_some_iff.mp hi).1] at hk
      cases hk
      rw [htable]
      exact hr.table i job hi
    · rw [List.getElem?_set_ne hik] at hk
      exact hr.table k job'' hk
  place job'' hmem := by
    rcases List.mem_or_eq_of_mem_set hmem with hmem | rfl
    · exact hr.place job'' hmem
    · rw [htable, hfile]
      exact hr.place job (List.mem_of_getElem? hi)
  contentAt := hr.contentAt

theorem quiet (hr : r.Filed s files tables events) (event : RunEvent)
    (harrival : event.arrival = []) (after : Engine) :
    { r with engine := after }.Filed s files tables (events ++ [event]) :=
  { hr with
    contentAt := fun place => hr.contentAt_concat place (by
      rw [harrival]
      exact ByteArray.append_empty.symm) }

theorem append (hr : r.Filed s files tables events) (hi : r.jobs[i]? = some job) (gap : Gap)
    (harrival : event.arrival = [⟨i, kind, gap⟩]) :
    { r with files := (job.gapFile kind).append gap r.files }.Filed s files tables
      (events ++ [event]) := by
  obtain ⟨hplace, hfile⟩ := hr.place job (List.mem_of_getElem? hi) kind
  refine { hr with workingDirectory := ?_, place := fun job' hmem kind' => ?_,
                   contentAt := fun place => hr.contentAt_concat place ?_ }
  · exact (FileTree.workingDirectory_append ..).trans hr.workingDirectory
  · obtain ⟨hplace', hfile'⟩ := hr.place job' hmem kind'
    exact ⟨hplace', FileTree.isFile_append hfile gap.record hfile'⟩
  · have hfor : Arrival.isFor s files tables place ⟨i, kind, gap⟩ =
        decide (place = (job.gapFile kind).place) := by
      rw [Arrival.isFor, hr.table i job hi, Option.any_some, hplace]
      exact decide_eq_decide.mpr eq_comm
    rw [GapFile.append, FileTree.contentAt_append hfile, harrival, added, List.filter_singleton,
      hfor]
    by_cases heq : place = (job.gapFile kind).place
    · rw [if_pos heq, decide_eq_true heq, cond_true, List.map_singleton, records_cons,
        records_nil, String.append_empty]
    · rw [if_neg heq, decide_eq_false heq]
      rfl

theorem receive (hr : r.Filed s files tables events) (hi : r.jobs[i]? = some job)
    (receipt : Receipt) :
    { r with files := job.file r.files receipt }.Filed s files tables
      (events ++ [RunEvent.receive i receipt]) := by
  cases receipt with
  | readGap gap =>
    have harrival : (RunEvent.receive i (.readGap gap)).arrival = [⟨i, .read, gap⟩] := rfl
    exact hr.append hi gap harrival
  | writeGap gap =>
    have harrival : (RunEvent.receive i (.writeGap gap)).arrival = [⟨i, .write, gap⟩] := rfl
    exact hr.append hi gap harrival
  | failure reason => exact hr.quiet (.receive i (.failure reason)) rfl r.engine

theorem startTable {rest : List Table} (hr : r.Filed s files tables events)
    (hwaiting : r.waiting = t :: rest) :
    (r.startTable t rest).Filed s files tables (events ++ [.startTable]) := by
  have hfailure : r.failure = none := by
    by_contra hne
    cases hwaiting.symm.trans (hr.waiting hne)
  have htables := hr.tables_eq hfailure
  rw [hwaiting] at htables
  obtain ⟨hkeeps, hopened⟩ := keeps_openGapFiles r.setting t r.files
  have hcontent : ∀ {after : FileTree}, r.files.Keeps after → ∀ place,
      after.contentAt place = files.contentAt place ++
        (added s files tables place (arrivals (events ++ [.startTable]))).toUTF8 :=
    fun hkeeps place => hr.contentAt_concat place ((hkeeps.contentAt place).trans
      ByteArray.append_empty.symm)
  have hplace : ∀ {after : FileTree}, r.files.Keeps after → ∀ job ∈ r.jobs, ∀ kind,
      (job.gapFile kind).place = gapPlace s files job.table kind ∧
        after.IsFile (job.gapFile kind).place :=
    fun hkeeps job hmem kind => (hr.place job hmem kind).imp_right (hkeeps.isFile _)
  rcases hrun : (openGapFiles r.setting t).run.run r.files with
    ⟨reason | ⟨readFile, writeFile⟩, after⟩
  · rw [hrun] at hkeeps
    rw [MigrationRun.startTable, hrun]
    exact {
      setting := hr.setting
      workingDirectory := hkeeps.workingDirectory.trans hr.workingDirectory
      tables_eq := fun h => absurd h (Option.some_ne_none _)
      waiting := fun _ => rfl
      table := hr.table
      place := hplace hkeeps
      contentAt := hcontent hkeeps }
  · rw [hrun] at hkeeps
    rw [startTable_of_open hrun]
    have hfiles := hopened readFile writeFile after hrun
    rw [hr.setting, gapPlace_congr hr.workingDirectory, gapPlace_congr hr.workingDirectory]
      at hfiles
    refine {
      setting := hr.setting
      workingDirectory := hkeeps.workingDirectory.trans hr.workingDirectory
      tables_eq := fun _ => ?_
      waiting := fun h => absurd hfailure h
      table := fun j job hj => ?_
      place := fun job hmem kind => ?_
      contentAt := hcontent hkeeps }
    · rw [← htables, List.map_append, List.append_assoc]
      rfl
    · rcases Nat.lt_or_ge j r.jobs.length with hlt | hge
      · rw [List.getElem?_append_left hlt] at hj
        exact hr.table j job hj
      · rw [List.getElem?_append_right hge, List.getElem?_singleton] at hj
        obtain ⟨hlast, ⟨⟩⟩ := Option.ite_none_right_eq_some.mp hj
        rw [← htables, List.getElem?_append_right (by rw [List.length_map]; exact hge),
          List.length_map, hlast]
        rfl
    · rcases List.mem_append.mp hmem with hmem | hmem
      · exact hplace hkeeps job hmem kind
      · rw [List.mem_singleton.mp hmem]
        cases kind
        · exact hfiles.1
        · exact hfiles.2

theorem step (hr : r.Filed s files tables events) (h : r.step event = some next) :
    next.Filed s files tables (events ++ [event]) := by
  cases Step.of_step h with
  | startTable hwaiting => exact hr.startTable hwaiting
  | @engine ev after => exact hr.quiet (.engine ev) rfl after
  | @supply i _ range _ after hi => exact (hr.quiet (.supply i range) rfl after).set hi rfl rfl
  | @endSupply i _ after hi => exact (hr.quiet (.endSupply i) rfl after).set hi rfl rfl
  | @receive i job receipt after hi =>
    have hfile : (job.receive receipt).gapFile = job.gapFile := by cases receipt <;> rfl
    have hset := (hr.receive hi receipt).set hi (job.notes_receive receipt).table hfile
    exact { hset with }
  | @complete i _ hi => exact (hr.quiet (.complete i) rfl r.engine).set hi rfl rfl

end Filed

theorem filed_of_run (hrun : (begin s e files tables).run? events = some r) :
    r.Filed s files tables events :=
  run_induction (P := fun events r => r.Filed s files tables events)
    (.begin s e files tables) (fun _ hstep hfiled => hfiled.step hstep) hrun

end MigrationRun

/-! ### Gap files in one place -/

/-- The arrivals are those for the gap files in a place, put together: each gap file has given the
gaps of its report, in their order. -/
structure Merges (s : RunSetting) (files : FileTree) (reports : List TableReport)
    (place : Location) (merged : List Arrival) : Prop where
  only : ∀ a ∈ merged, ∃ report, reports[a.job]? = some report ∧
    gapPlace s files report.table a.kind = place
  inOrder : ∀ j report kind, reports[j]? = some report →
    gapPlace s files report.table kind = place →
      (merged.filter (·.isOf j kind)).map (·.gap) = report.gaps kind

namespace Merges

variable {reports : List TableReport} {report : TableReport} {merged : List Arrival}

theorem job_eq (hnodup : (reports.map (·.table)).Nodup) (hj : reports[j]? = some report)
    (hm : Merges s files reports (gapPlace s files report.table kind) merged) :
    ∀ a ∈ merged, a.job = j ∧
      files.placeOf (s.gapsDir a.kind) = files.placeOf (s.gapsDir kind) := by
  intro a ha
  obtain ⟨other, hother, hplace⟩ := hm.only a ha
  obtain ⟨hdirectory, htable⟩ := gapPlace_eq_iff.mp hplace
  refine ⟨?_, hdirectory⟩
  have hget : (reports.map (·.table))[a.job]? = (reports.map (·.table))[j]? := by
    rw [List.getElem?_map, List.getElem?_map, hother, hj, Option.map_some, Option.map_some, htable]
  refine (List.getElem?_inj ?_ hnodup).mp hget
  rw [List.length_map]
  exact (List.getElem?_eq_some_iff.mp hother).1

theorem map_gap_eq (hnodup : (reports.map (·.table)).Nodup) (hj : reports[j]? = some report)
    (hm : Merges s files reports (gapPlace s files report.table kind) merged)
    (hne : files.placeOf s.readGapsDir ≠ files.placeOf s.writeGapsDir) :
    merged.map (·.gap) = report.gaps kind := by
  have hall : merged.filter (·.isOf j kind) = merged := by
    refine List.filter_eq_self.mpr fun a ha => ?_
    obtain ⟨hjob, hdirectory⟩ := hm.job_eq hnodup hj a ha
    have hkind : a.kind = kind := by
      rcases a with ⟨_, _ | _, _⟩ <;> cases kind
      · rfl
      · exact absurd hdirectory hne
      · exact absurd hdirectory.symm hne
      · rfl
    rw [Arrival.isOf, decide_eq_true hjob, decide_eq_true hkind]
    rfl
  rw [← hm.inOrder j report kind hj rfl, hall]

/-- In a file that both sides of a table share, the gaps of each side are in order. -/
theorem map_side_eq (hnodup : (reports.map (·.table)).Nodup) (hj : reports[j]? = some report)
    (hm : Merges s files reports (gapPlace s files report.table kind) merged) (side : GapKind)
    (hplace : gapPlace s files report.table side = gapPlace s files report.table kind) :
    ((merged.map fun a => (a.kind, a.gap)).filter (·.1 = side)).map (·.2) = report.gaps side := by
  rw [← hm.inOrder j report side hj hplace, List.filter_map, List.map_map]
  refine congrArg (List.map _) (List.filter_congr fun a ha => ?_)
  rw [Arrival.isOf, decide_eq_true (hm.job_eq hnodup hj a ha).1]
  rfl

end Merges

namespace MigrationRun

/-- What has arrived for a place, once all tables are complete. -/
theorem merges_of_run (hrun : (begin s e files tables).run? events = some r)
    (htables : r.jobs.map (·.table) = tables) (place : Location) :
    Merges s files (r.jobs.map (·.report)) place
      ((arrivals events).filter (·.isFor s files tables place)) where
  only a ha := by
    obtain ⟨t, ht, hplace⟩ := (Option.any_eq_true _ _).mp (List.mem_filter.mp ha).2
    rw [← htables, List.getElem?_map] at ht
    obtain ⟨job, hjob, rfl⟩ := Option.map_eq_some_iff.mp ht
    exact ⟨job.report, by rw [List.getElem?_map, hjob]; rfl, of_decide_eq_true hplace⟩
  inOrder j report kind hj hplace := by
    rw [List.getElem?_map] at hj
    obtain ⟨job, hjob, rfl⟩ := Option.map_eq_some_iff.mp hj
    have hfor : ((arrivals events).filter (·.isFor s files tables place)).filter (·.isOf j kind) =
        (arrivals events).filter (·.isOf j kind) := by
      rw [List.filter_filter]
      refine List.filter_congr fun a _ => ?_
      by_cases hof : a.isOf j kind = true
      · obtain ⟨hjob', hkind⟩ := Bool.and_eq_true_iff.mp hof
        rw [hof, Arrival.isFor, of_decide_eq_true hjob', of_decide_eq_true hkind,
          (filed_of_run hrun).table j job hjob, Option.any_some, Bool.true_and]
        exact decide_eq_true hplace
      · rw [Bool.eq_false_iff.mpr hof, Bool.false_and]
    have hnote := (kept_of_run hrun).jobs j job hjob
    rw [hfor, ← gapReceived_of_run hrun e.pools.length]
    cases kind
    · exact hnote.readGaps.symm
    · exact hnote.writeGaps.symm

/-- **Gap files, reports and pools agree.** Let a run come to reports, whatever its reads and writes
answered and in whatever order the events happened. Each report has exactly the gaps that the pool
of its table told, on each side in the order of telling, and the number of its failures. Every file
holds what it held before the run and then whole records: those of all gap files in its place, each
of them in the order of its report. So with directories apart the gap file of a table has the
records of one side in order, and with one directory an interleaving of both, if no table is listed
twice. The bytes that were added tell the ranges of the gaps in order. -/
theorem gapFiles_of_result {reports : List TableReport}
    (hrun : (begin s e files tables).run? events = some r)
    (hover : r.isOver = true) (hresult : r.result = .ok reports) :
    reports.map (·.table) = tables ∧
    (∀ j report, reports[j]? = some report →
      let moves := jobMoves e.pools.length j events
      (∀ kind, report.gaps kind = moves.flatMap (·.told.filterMap (·.gap? kind))) ∧
      report.errors = (moves.flatMap (·.told.filterMap (·.failure?))).length ∧
      ∀ kind, r.files.IsFile (gapPlace s files report.table kind)) ∧
    (∀ place, ∃ merged, Merges s files reports place merged ∧ r.files.contentAt place =
      files.contentAt place ++ (records (merged.map (·.gap))).toUTF8) ∧
    (tables.Nodup → ∀ report ∈ reports, ∀ kind,
      let place := gapPlace s files report.table kind
      (files.placeOf s.readGapsDir ≠ files.placeOf s.writeGapsDir →
        r.files.contentAt place =
          files.contentAt place ++ (records (report.gaps kind)).toUTF8) ∧
      (files.placeOf s.readGapsDir = files.placeOf s.writeGapsDir →
        ∃ merged : List (GapKind × Gap),
          (∀ side, (merged.filter (·.1 = side)).map (·.2) = report.gaps side) ∧
          r.files.contentAt place =
            files.contentAt place ++ (records (merged.map (·.2))).toUTF8)) ∧
    ∀ gaps gaps' : List Gap, (records gaps).toUTF8 = (records gaps').toUTF8 →
      gaps.map (·.range) = gaps'.map (·.range) := by
  obtain ⟨hfailure, rfl⟩ := result_eq_ok.mp hresult
  obtain ⟨hwaiting, hcomplete⟩ := (isOver_iff hfailure).mp hover
  have hfiled := filed_of_run hrun
  have htables := hfiled.tables_eq hfailure
  rw [hwaiting, List.append_nil] at htables
  have hreports : (r.jobs.map (·.report)).map (·.table) = tables := by
    rw [List.map_map]
    exact htables
  have hmerge := merges_of_run hrun htables
  refine ⟨hreports, fun j report hj => ?_, fun place => ⟨_, hmerge place, hfiled.contentAt place⟩,
    fun hnodup report hmem kind => ⟨fun hne => ?_, fun heq => ?_⟩, fun gaps gaps' htext => ?_⟩
  · obtain ⟨job, hjob, rfl⟩ := Option.map_eq_some_iff.mp (List.getElem?_map ▸ hj)
    have hmem := List.mem_of_getElem? hjob
    have hnote := (kept_of_run hrun).jobs j job hjob
    obtain ⟨pool, hpool, -, -, hhistory, -⟩ := hnote.history
    have hall := hhistory.allReceived ((hnote.ended pool hpool).2 (hcomplete job hmem))
    refine ⟨fun kind => ?_, ?_, fun kind => ?_⟩
    · rw [← hall.gaps]
      cases kind
      · exact hnote.readGaps
      · exact hnote.writeGaps
    · rw [← hall.failures]
      exact hnote.errors
    · obtain ⟨hplace, hfile⟩ := hfiled.place job hmem kind
      exact hplace ▸ hfile
  · obtain ⟨j, hj⟩ := List.mem_iff_getElem?.mp hmem
    have hmerged := hmerge (gapPlace s files report.table kind)
    have hgaps := hmerged.map_gap_eq (hreports ▸ hnodup) hj hne
    rw [hfiled.contentAt, added, hgaps]
  · obtain ⟨j, hj⟩ := List.mem_iff_getElem?.mp hmem
    have hplace : ∀ side,
        gapPlace s files report.table side = gapPlace s files report.table kind := by
      intro side
      refine gapPlace_eq_iff.mpr ⟨?_, rfl⟩
      cases side <;> cases kind
      · rfl
      · exact heq
      · exact heq.symm
      · rfl
    refine ⟨_, fun side => (hmerge _).map_side_eq (hreports ▸ hnodup) hj side (hplace side), ?_⟩
    rw [hfiled.contentAt, added, List.map_map]
    rfl
  · exact ranges_eq_of_records_eq (String.toByteArray_inj.mp htext)

end MigrationRun

/-! ### A run with a gap on each side -/

/-- The gap files of the read side are in the root, those of the write side in the working
directory. -/
def apart : RunSetting := { sixHeights with readGapsDir := "/" }

/-- A run of state nodes with one worker, in a directory below the root. -/
def apartWaiting : MigrationRun :=
  .begin apart (.fresh ⟨1, [.state], false⟩) ⟨["run"], []⟩ [.state]

/-- The run with the table started. -/
def apartStarted : MigrationRun where
  setting := apart
  engine := ((Engine.fresh ⟨1, [.state], false⟩).migrate .state (some 1)).2
  files := ⟨["run"], [(["state_cids_0"], .file .empty), (["run", "state_cids_0"], .file .empty)]⟩
  waiting := []
  jobs :=
    [⟨.state, 0, ⟨["state_cids_0"]⟩, ⟨["run", "state_cids_0"]⟩, sixHeights.ranges, 0, true, [], [],
      0, false⟩]

theorem components_apart : ∀ kind, FileTree.components (apart.gapsDir kind) = []
  | .read => by
    rw [FileTree.components_eq]
    decide +kernel
  | .write => FileTree.components_empty

theorem gapPlace_apart : ∀ kind, gapPlace apart ⟨["run"], []⟩ .state kind =
    match kind with
    | .read => ["state_cids_0"]
    | .write => ["run", "state_cids_0"]
  | .read => by
    rw [gapPlace_of_components_eq_nil (components_apart .read)]
    decide +kernel
  | .write => by
    rw [gapPlace_of_components_eq_nil (components_apart .write)]
    decide +kernel

theorem startTable_apartWaiting : apartWaiting.step .startTable = some apartStarted := by
  have hopen := run_openGapFiles apart .state ⟨["run"], []⟩ components_apart
    ⟨by decide +kernel, by rintro (_ | _) <;> decide +kernel⟩
    (by rintro (_ | _) <;> rw [gapPlace_apart] <;> rfl)
  simp only [gapPlace_apart] at hopen
  rw [if_neg (by decide)] at hopen
  have hstarted := MigrationRun.startTable_of_open (r := apartWaiting) hopen []
  exact congrArg some hstarted

theorem run_halfWritten_apart :
    ∃ r report, apartWaiting.run? halfWritten = some r ∧ r.isOver = true ∧
      r.result = .ok [report] ∧ report.table = .state := by
  have hstarted : apartWaiting.run? halfWritten = apartStarted.run? halfWritten.tail := by
    rw [halfWritten, MigrationRun.run?, startTable_apartWaiting, Option.bind_some, List.tail_cons]
  have hend : ((apartStarted.run? halfWritten.tail).map fun r => (r.isOver, r.failure.isSome,
      r.jobs.map (·.table))) = some (true, false, [.state]) := by
    decide +kernel
  rw [hstarted]
  obtain ⟨r, hr, hover⟩ := Option.map_eq_some_iff.mp hend
  simp only [Prod.mk.injEq, Option.isSome_eq_false_iff, Option.isNone_iff_eq_none,
    List.map_eq_singleton_iff] at hover
  obtain ⟨hover, hfailure, job, hjobs, htable⟩ := hover
  refine ⟨r, job.report, hr, hover, ?_, htable⟩
  rw [MigrationRun.result_eq_ok, hjobs]
  exact ⟨hfailure, rfl⟩

/-- Height 4 is a gap of the read side and the heights 6 to 8 are one of the write side. In
directories apart each gap file has its record; a file that both sides share has the two of them. -/
theorem halfWritten_filed :
    (∃ r report, apartWaiting.run? halfWritten = some r ∧ r.result = .ok [report] ∧
      report.errors = 1 ∧
      r.files.contentAt ["state_cids_0"] = "4, 4\r\n".toUTF8 ∧
      r.files.contentAt ["run", "state_cids_0"] = "6, 8\r\n".toUTF8) ∧
    ∃ r report, ∃ merged : List (GapKind × Gap), stateWaiting.run? halfWritten = some r ∧
      r.result = .ok [report] ∧
      (∀ side, (merged.filter (·.1 = side)).map (·.2) = report.gaps side) ∧
      r.files.contentAt ["state_cids_0"] = (records (merged.map (·.2))).toUTF8 := by
  constructor
  · obtain ⟨r, report, hrun, hover, hresult, htable⟩ := run_halfWritten_apart
    obtain ⟨-, hreports, -, hfiles, -⟩ := MigrationRun.gapFiles_of_result hrun hover hresult
    obtain ⟨hgaps, herrors, -⟩ := hreports 0 report rfl
    have hapart : (⟨["run"], []⟩ : FileTree).placeOf (apart.gapsDir .read) ≠
        (⟨["run"], []⟩ : FileTree).placeOf (apart.gapsDir .write) := by
      intro hsame
      have hplaces := (gapPlace_eq_iff (t := .state)).mpr ⟨hsame, rfl⟩
      rw [gapPlace_apart .read, gapPlace_apart .write] at hplaces
      exact absurd hplaces (by decide)
    have hcontents := fun kind =>
      (hfiles (by decide) report (List.mem_singleton_self report) kind).1 hapart
    rw [htable] at hcontents
    refine ⟨r, report, hrun, hresult, herrors, ?_, ?_⟩
    · have hread := hcontents .read
      rw [gapPlace_apart .read, hgaps] at hread
      exact hread
    · have hwrite := hcontents .write
      rw [gapPlace_apart .write, hgaps] at hwrite
      exact hwrite
  · obtain ⟨r, report, hrun, hover, hresult, htable, -⟩ := run_halfWritten
    obtain ⟨-, -, -, hfiles, -⟩ := MigrationRun.gapFiles_of_result hrun hover hresult
    obtain ⟨merged, hsides, hcontent⟩ :=
      (hfiles (by decide) report (List.mem_singleton_self report) .read).2 rfl
    rw [htable, gapPlace_stateWaiting] at hcontent
    exact ⟨r, report, merged, hrun, hresult, hsides, hcontent⟩

end ChainMigration
