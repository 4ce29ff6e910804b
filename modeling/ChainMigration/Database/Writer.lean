import ChainMigration.Database.Connection
import ChainMigration.Database.Place

/-! # Writing to the new database

New rows are inserted in one statement. Blobs are copied through a foreign table, the pages of a
segment in one transaction. -/

namespace ChainMigration

namespace Connection

/-- Writes new rows and tells how many were written. Without rows nothing is executed. -/
def writeRows (c : Connection) (t : Table) (range : BlockRange) (new : NewRows) :
    DatabaseWork MigrationError Nat := do
  if new.rows.isEmpty then return 0
  else
    let fail (reason : DatabaseError) : MigrationError := .write t.name range reason
    c.get.mapError fail
    (c.execute (.insert t new.columns)).mapError (fail <| .statement ·)

/-- The last page of a foreign table. -/
def lastPage (c : Connection) (name : String) : DatabaseWork MigrationError UInt64 := do
  c.get.mapError (.pool · "querying foreign table max page")
  let place ← (c.execute (.lastPlace name)).mapError .database
  match place with
  | none => throw (.rangeDetection (.noPages name))
  | some raw =>
    match pageOfPlace? raw with
    | some page => return .ofNat page
    | none => throw (.rangeDetection (.place raw name))

/-- Copies so many pages from a first one on; `copied` blobs were copied before. -/
def copyFrom (c : Connection) (name : String) (page : Nat) :
    (count copied : Nat) → DatabaseWork CopyError Nat
  | 0, copied => return copied
  | count + 1, copied => do
    if page ≤ bigintMax then
      let blobs : Nat ← (c.execute (.copyPage name (.ofNat page))).mapError fun reason =>
        CopyError.database (.statement reason)
      c.copyFrom name (page + 1) count (copied + blobs)
    else throw .page

/-- Copies a segment of pages in one transaction and tells how many blobs were copied. -/
def copyPages (c : Connection) (name : String) (pages : BlockRange) :
    DatabaseWork MigrationError Nat :=
  let work : DatabaseWork CopyError Nat := do
    c.get.mapError .database
    (c.execute .begin).mapError fun reason => .database (.statement reason)
    let copied ← c.copyFrom name pages.start (pages.stop - pages.start + 1) 0
    (c.execute .commit).mapError fun reason => .database (.statement reason)
    return copied
  work.mapError (.transfer name pages ·)

end Connection

end ChainMigration
