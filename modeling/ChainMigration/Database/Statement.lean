import ChainMigration.Config.Basic
import ChainMigration.Database.Identifier
import ChainMigration.Row.Value
import ChainMigration.Table.Query

/-! # Statements

The statements that databases execute for a run, with their texts and the form of their results, and
servers that execute them. -/

namespace ChainMigration

/-- A statement with its parameters. -/
inductive Statement
  /-- Shows that a connection works. -/
  | ping
  /-- Asks for the lowest and the highest height of the headers. -/
  | heightBounds
  /-- Reads a table, between two heights if it has heights. -/
  | read (table : Table) (bounds : Option (Int64 × Int64))
  /-- Inserts rows from one array for each column. -/
  | insert (table : Table) (columns : List (List Value))
  /-- Asks for the place of the last row of a foreign table. -/
  | lastPlace (foreignTable : String)
  | begin
  /-- Copies the blobs on a page of a foreign table. -/
  | copyPage (foreignTable : String) (page : Int64)
  | commit
deriving DecidableEq

namespace Statement

/-- The text of a statement. -/
def sql : Statement → String
  | ping => "SELECT 1"
  | heightBounds =>
    "SELECT MIN(block_number)::TEXT, MAX(block_number)::TEXT FROM eth.header_cids"
  | read t _ => t.readQuery
  | insert t _ => t.writeQuery
  | lastPlace name => "SELECT MAX(ctid)::TEXT FROM " ++ delimited name
  | begin => "START TRANSACTION"
  | copyPage name _ =>
    "INSERT INTO public.blocks (key, data)
        SELECT key, data FROM " ++ delimited name ++ "
        WHERE ctid = ANY (ARRAY(
            SELECT ('(' || $1::BIGINT || ',' || s.i || ')')::tid
            FROM generate_series(0, current_setting('block_size')::int / 4) AS s(i)
        ))
        ON CONFLICT (key) DO NOTHING"
  | commit => "COMMIT"

/-- What a statement results in. -/
def Result : Statement → Type
  | ping | begin | commit => Unit
  | heightBounds => Option String × Option String
  | read _ _ => List ResultRow
  | insert _ _ | copyPage _ _ => Nat
  | lastPlace _ => Option String

end Statement

/-- A database server. -/
structure Server where
  /-- Logs in to a database. -/
  login : (db : DatabaseConfig) → (encrypted : Bool) → Except ConnectError Unit
  /-- Executes a statement in a database, or refuses it with a reason. -/
  execute : (database : String) → (s : Statement) → Except String s.Result

/-- A server that does not answer. -/
def Server.absent : Server where
  login _ _ := .error .unreachable
  execute _ _ := .error ""

/-- A statement that a database has executed, or tried to. -/
structure Executed where
  database : String
  statement : Statement
deriving DecidableEq

/-- Work with databases. The statements that it executed are kept, also after an error. -/
abbrev DatabaseWork (ε : Type) := ExceptT ε (StateM (List Executed))

namespace DatabaseWork

/-- What work comes to. -/
def result {ε α : Type} (w : DatabaseWork ε α) : Except ε α := (w.run.run []).1

/-- The statements that work executes. -/
def statements {ε α : Type} (w : DatabaseWork ε α) : List Executed := (w.run.run []).2

/-- Work with its error put into another one. -/
def mapError {ε ε' α : Type} (f : ε → ε') (w : DatabaseWork ε α) : DatabaseWork ε' α :=
  ExceptT.adapt f w

end DatabaseWork

end ChainMigration
