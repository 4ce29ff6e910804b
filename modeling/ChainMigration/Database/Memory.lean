import ChainMigration.Database.Statement
import ChainMigration.Text.Decimal

/-! # Servers in memory

A server that answers from tables in memory. It refuses logins and statements as it is told to. -/

namespace ChainMigration

/-- The kinds of statements that can be made to fail. -/
inductive StatementKind
  | read
  | insert
  | copyPage
  | heightBounds
  | lastPlace
  | ping
  | transaction
deriving DecidableEq

namespace Statement

/-- The kind of a statement. -/
def kind : Statement → StatementKind
  | ping => .ping
  | heightBounds => .heightBounds
  | read _ _ => .read
  | insert _ _ => .insert
  | lastPlace _ => .lastPlace
  | begin | commit => .transaction
  | copyPage _ _ => .copyPage

/-- The table of a statement that reads or inserts rows. -/
def table? : Statement → Option Table
  | read t _ | insert t _ => some t
  | _ => none

/-- What tells a statement from others of its kind: its parameters, or the database and the text of
a statement without parameters that is not a query. -/
def parameters (database : String) (s : Statement) : List Value :=
  match s with
  | read _ (some (start, stop)) => [.bigint start, .bigint stop]
  | copyPage _ page => [.bigint page]
  | ping | begin | commit => [.text database, .text s.sql]
  | _ => []

end Statement

/-- Statements that fail, with the reason. -/
structure Fault where
  kind : StatementKind
  /-- Only the statements of this table fail. -/
  table : Option Table
  /-- Only the statements with these parameters fail. -/
  parameters : Option (List Value)
  reason : String

/-- The fault concerns a statement in a database. -/
def Fault.concerns (f : Fault) (database : String) (s : Statement) : Bool :=
  f.kind = s.kind && f.table.all (some · = s.table?) &&
    f.parameters.all (· = s.parameters database)

/-- A stored row with the text of its height. -/
structure StoredRow where
  height : Option String
  cells : ResultRow

/-- A stored row is found between two heights; a row whose height is no number is always found. -/
def StoredRow.isFound (row : StoredRow) (bounds : Int64 × Int64) : Bool :=
  match row.height.bind Text.readSigned? with
  | some height => bounds.1.toInt ≤ height && height ≤ bounds.2.toInt
  | none => true

/-- A server that answers from tables in memory. -/
structure MemoryServer where
  host : String
  port : UInt16
  rows : Table → List StoredRow
  /-- The lowest and the highest height of the headers. -/
  bounds : Option String × Option String
  /-- The place of the last row of every foreign table. -/
  lastPlace : Option String
  /-- How many rows every insert tells to have written, in place of the rows it was given. -/
  affected : Option Nat
  /-- How many blobs a page holds. -/
  blobs : Int → Nat
  faults : List Fault
  /-- The databases that refuse logins, with the reason. -/
  refusals : List (String × String)

namespace MemoryServer

/-- Logs in to a database. -/
def login (m : MemoryServer) (db : DatabaseConfig) (encrypted : Bool) :
    Except ConnectError Unit :=
  if db.host ≠ m.host ∨ db.port ≠ m.port then .error .unreachable
  else if encrypted then .error .handshake
  else
    match m.refusals.find? (·.1 = db.database) with
    | some (_, reason) => .error (.refused reason)
    | none => .ok ()

/-- The result of a statement that does not fail. -/
def result (m : MemoryServer) : (s : Statement) → s.Result
  | .ping | .begin | .commit => ()
  | .heightBounds => m.bounds
  | .read t none => (m.rows t).map (·.cells)
  | .read t (some bounds) => ((m.rows t).filter (·.isFound bounds)).map (·.cells)
  | .insert _ columns => m.affected.getD (columns.head?.getD []).length
  | .lastPlace _ => m.lastPlace
  | .copyPage _ page => m.blobs page.toInt

/-- The server that answers from the tables. -/
def server (m : MemoryServer) : Server where
  login := m.login
  execute database s :=
    match m.faults.find? (·.concerns database s) with
    | some fault => .error fault.reason
    | none => .ok (m.result s)

end MemoryServer

end ChainMigration
