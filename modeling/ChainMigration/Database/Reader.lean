import ChainMigration.Database.Connection

/-! # Reading the old database

The rows of a table between two heights, and the lowest and the highest height of the headers. -/

namespace ChainMigration

/-- A height as a parameter of a statement. -/
def heightParameter (t : Table) (range : BlockRange) (height : Nat) :
    Except MigrationError Int64 :=
  if height ≤ bigintMax then .ok (.ofNat height) else .error (.read t.name range (.bigint height))

/-- The parameters of the statement that reads a range of a table. -/
def readParameters (t : Table) (range : BlockRange) :
    Except MigrationError (Option (Int64 × Int64)) := do
  if t.heightSegmented then
    let start ← heightParameter t range range.start
    let stop ← heightParameter t range range.stop
    return some (start, stop)
  else return none

/-- Reads the two texts of a pair of heights, which must be in order. -/
def readHeightBounds : Option String × Option String → Except MigrationError (UInt64 × UInt64)
  | (some low, some high) => do
    let read (raw : String) : Except MigrationError Nat :=
      (Text.readWord (Text.trim raw)).mapError (.rangeDetection <| .height raw ·)
    let least ← read low
    let most ← read high
    if least ≤ most then return (.ofNat least, .ofNat most)
    else .error (.rangeDetection (.inverted least most))
  | _ => .error (.rangeDetection .noHeaders)

namespace Connection

/-- Reads the rows of a range of a table. -/
def readRows (c : Connection) (t : Table) (range : BlockRange) :
    DatabaseWork MigrationError OldRows := do
  let fail (reason : DatabaseError) : MigrationError := .read t.name range (.database reason)
  c.get.mapError fail
  let bounds ← MonadExcept.ofExcept (readParameters t range)
  let rows ← (c.execute (.read t bounds)).mapError (fail <| .statement ·)
  MonadExcept.ofExcept ((OldRows.read t rows).mapError (fail <| .statement <| .cell ·))

/-- The lowest and the highest height of the headers. -/
def heightBounds (c : Connection) : DatabaseWork MigrationError (UInt64 × UInt64) := do
  let fail (reason : DatabaseError) : MigrationError := .rangeDetection (.bounds reason)
  c.get.mapError fail
  let texts ← (c.execute .heightBounds).mapError (fail <| .statement ·)
  MonadExcept.ofExcept (readHeightBounds texts)

end Connection

end ChainMigration
