import ChainMigration.Error
import ChainMigration.Policy

/-! # The work on one range

What a worker does with a range: its rows are read, upgraded and written, and whatever goes wrong
ends the work on the range and is told in notices. Nothing is tried twice. `processRange` is the
whole work on a range against given endpoints. -/

namespace ChainMigration

/-- What rows are read from and written to, and what pages are copied through. -/
structure Endpoints where
  read : Table → BlockRange → Except MigrationError OldRows
  /-- Writes new rows and answers how many were written. -/
  write : Table → BlockRange → NewRows → Except MigrationError Nat
  /-- The lowest and the highest height of the old headers. -/
  bounds : Except MigrationError (UInt64 × UInt64)
  /-- The last page of a foreign table. -/
  lastPage : String → Except MigrationError UInt64
  /-- Copies pages of a foreign table and answers how many blobs were copied. -/
  copy : String → BlockRange → Except MigrationError Nat

/-- What a worker has to tell about a range. -/
inductive Notice
  | gap (kind : GapKind) (gap : Gap)
  | failure (reason : MigrationError)
deriving DecidableEq

/-- How the work on a range goes on once its rows were asked for. -/
inductive AfterRead
  /-- The work is over, with something to tell. -/
  | finished (notices : List Notice)
  /-- New rows are to be written. -/
  | batch (upgraded : Upgraded)
deriving DecidableEq

/-- A range that could not be converted or written. -/
def writeFailure (range : BlockRange) (why : GapReason) (reason : MigrationError) : List Notice :=
  [.gap .write ⟨range, why⟩, .failure reason]

/-- Goes on with the answer to a read. -/
def afterRead (p : Policy) (t : Table) (range : BlockRange) :
    Except MigrationError OldRows → AfterRead
  | .error reason =>
    .finished ((p.readFailureGap t).toList.map (.gap · ⟨range, .readFailed⟩) ++ [.failure reason])
  | .ok old =>
    if old.rows.isEmpty then
      .finished (if p.requires t then
        [.gap .read ⟨range, .emptyRange⟩, .failure (.read t.name range .noRows)] else [])
    else match t.upgrade range old with
      | .error reason =>
        .finished (writeFailure range .transformFailed (.transform t.name range reason))
      | .ok upgraded => .batch upgraded

/-- What there is to tell after a write: the runs of missing heights if it succeeded. -/
def afterWrite (range : BlockRange) (upgraded : Upgraded) :
    Except MigrationError Nat → List Notice
  | .error reason => writeFailure range .writeFailed reason
  | .ok _ => upgraded.missing.map fun missing => .gap .read ⟨missing, .discontinuity⟩

/-- What the work on a range comes to. -/
structure Outcome where
  /-- The rows that were written. -/
  written : Option NewRows
  notices : List Notice
deriving DecidableEq

/-- The whole work on a range. -/
def processRange (ends : Endpoints) (p : Policy) (t : Table) (range : BlockRange) : Outcome :=
  match afterRead p t range (ends.read t range) with
  | .finished notices => ⟨none, notices⟩
  | .batch upgraded =>
    let answer := ends.write t range upgraded.rows
    ⟨if answer.isOk then some upgraded.rows else none, afterWrite range upgraded answer⟩

namespace Notice

/-- The gap that a notice reports on a side. -/
def gap? (kind : GapKind) : Notice → Option Gap
  | gap k g => if k = kind then some g else none
  | failure _ => none

/-- The failure that a notice reports. -/
def failure? : Notice → Option MigrationError
  | gap _ _ => none
  | failure reason => some reason

end Notice

end ChainMigration
