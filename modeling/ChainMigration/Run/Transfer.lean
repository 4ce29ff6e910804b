import ChainMigration.Engine.Transfer
import ChainMigration.Run.Schedule

/-! # Transfer runs

A run that transfers pages opens a gap file, starts the transfer and collects the segments that
failed: each goes into the gap file and into the report, and the failures are counted. It is
complete when the transfer is done and everything was received. Main statement:
`TransferRun.progress_of_step`, every event brings a run nearer to its end. -/

namespace ChainMigration

/-- A transfer under way. -/
structure TransferRun where
  engine : Engine
  files : FileTree
  gapFile : GapFile
  /-- The number of the transfer. -/
  index : Nat
  report : TransferReport
  complete : Bool := false

/-- Something that happens in a transfer run. -/
inductive TransferEvent
  /-- The engine goes on, or someone closes it. -/
  | engine (event : Event)
  | receiveFailed (pages : BlockRange)
  | receiveFailure (reason : MigrationError)
  | complete

namespace TransferRun

/-- Starts a transfer whose gap file is open. -/
def begin (c : TransferConfig) (lastPage : String → Except MigrationError UInt64) (e : Engine)
    (gapFile : GapFile) (files : FileTree) : Except MigrationError TransferRun := do
  let (index, count, engine) ← e.startTransfer c lastPage
  return { engine, files, gapFile, index, report := ⟨c.tableName, count, [], 0⟩ }

/-- The run once its engine has made a move of the copier's channels. -/
def move (r : TransferRun) (move : CopyMove) : Option TransferRun :=
  (r.engine.step (.transfer r.index move)).map fun engine => { r with engine }

/-- The transfer is done and everything was received. -/
def mayComplete (r : TransferRun) : Bool :=
  (r.engine.transfers[r.index]?).any fun c => c.done && c.drained

/-- One event of a run; none if it cannot happen. -/
def step (r : TransferRun) : TransferEvent → Option TransferRun
  | .engine event =>
    if event.isFree then (r.engine.step event).map fun engine => { r with engine } else none
  | .receiveFailed pages =>
    (r.move (.receiveFailed pages)).map fun r =>
      { r with
        files := r.gapFile.append ⟨pages, .writeFailed⟩ r.files
        report := { r.report with failed := r.report.failed ++ [pages] } }
  | .receiveFailure reason =>
    (r.move (.receiveFailure reason)).map fun r =>
      { r with report := { r.report with errors := r.report.errors + 1 } }
  | .complete =>
    if !r.complete && r.mayComplete then some { r with complete := true } else none

/-- What is left to do: phases first, then what is owed. -/
def distance (r : TransferRun) : Nat × Nat :=
  (r.engine.phases, r.engine.owed + (!r.complete).toNat)

theorem lower_of_engine {r : TransferRun} {e : Engine} {event : Event}
    (h : r.engine.step event = some e) (hadds : event.addsWork = false) :
    Lower (e.phases, e.owed + (!r.complete).toNat) r.distance := by
  have := Engine.progress_of_step h hadds
  simp only [Lower, distance] at *
  omega

/-- Every event brings a run nearer to its end. -/
theorem progress_of_step {r next : TransferRun} {event : TransferEvent}
    (h : r.step event = some next) : Lower next.distance r.distance := by
  cases event with
  | engine event =>
    simp only [step] at h
    split at h
    · next hfree =>
      simp only [Option.map_eq_some_iff] at h
      obtain ⟨e, hs, rfl⟩ := h
      exact lower_of_engine hs (Event.addsWork_of_isFree hfree)
    · simp at h
  | receiveFailed pages =>
    simp only [step, TransferRun.move, Option.map_map, Option.map_eq_some_iff] at h
    obtain ⟨e, hs, rfl⟩ := h
    exact lower_of_engine hs rfl
  | receiveFailure reason =>
    simp only [step, TransferRun.move, Option.map_map, Option.map_eq_some_iff] at h
    obtain ⟨e, hs, rfl⟩ := h
    exact lower_of_engine hs rfl
  | complete =>
    simp only [step] at h
    split at h
    · next hc =>
      cases h
      simp only [Bool.and_eq_true, Bool.not_eq_true'] at hc
      exact .inr ⟨rfl, by simp [distance, hc.1]⟩
    · simp at h

/-- What happens next in a run by itself. -/
def next? (replies : Replies) (r : TransferRun) : Option TransferEvent :=
  ((r.engine.next? replies).map .engine).or <|
    match r.engine.transfers[r.index]? with
    | none => none
    | some c =>
      match c.failed, c.errors with
      | pages :: _, _ => some (.receiveFailed pages)
      | [], reason :: _ => some (.receiveFailure reason)
      | [], [] => if !r.complete && r.mayComplete then some .complete else none

/-- What an event of a run shows. -/
def act? (r : TransferRun) : TransferEvent → Option Act
  | .engine event => r.engine.act? event
  | _ => none

/-- Lets a run go on until nothing can happen by itself; the acts that it shows come on top of the
given ones, the latest first. -/
def settle (replies : Replies) (r : TransferRun) (acts : List Act) : TransferRun × List Act :=
  match r.next? replies with
  | none => (r, acts)
  | some event =>
    match _ : r.step event with
    | none => (r, acts)
    | some next => next.settle replies ((r.act? event).toList ++ acts)
termination_by r.distance
decreasing_by exact (progress_of_step ‹_›).lex

end TransferRun

/-- What became of a transfer: its report or the error that kept it from being started, the files,
and the acts in order. -/
structure TransferResult where
  report : Except MigrationError TransferReport
  files : FileTree
  acts : List Act

/-- Transfers pages without any stop, with a gap file that is opened first. -/
def transferPages (ends : Endpoints) (directory : String) (seconds : Int) (c : TransferConfig)
    (e : Engine) (files : FileTree) : TransferResult :=
  match (GapFile.create directory c.tableName seconds).run.run files with
  | (.error reason, files) => ⟨.error (.file reason), files, []⟩
  | (.ok gapFile, files) =>
    match TransferRun.begin c ends.lastPage e gapFile files with
    | .error reason => ⟨.error reason, files, c.lookUps⟩
    | .ok r =>
      let (r, acts) := r.settle ends.replies c.lookUps
      ⟨.ok r.report, r.files, acts.reverse⟩

end ChainMigration
