import ChainMigration.Text.Hex

/-! # Column values

Values of table columns, the columns of a query result, and reading a column by its name. A column
is read only if its type is the wanted one; a null is read only where it may occur. -/

namespace ChainMigration

/-- The type of a column. -/
inductive SqlType
  | text
  /-- Another type of texts. -/
  | varchar
  | int8
  | int4
  | bool
  | bytea
  | textArray
  | other (name : String)
deriving DecidableEq

/-- The type of a name. -/
def SqlType.ofName : String → SqlType
  | "text" => .text
  | "varchar" | "bpchar" | "name" | "citext" | "unknown" => .varchar
  | "int8" => .int8
  | "int4" => .int4
  | "bool" => .bool
  | "bytea" => .bytea
  | "text[]" | "varchar[]" | "bpchar[]" | "name[]" => .textArray
  | name => .other name

/-- The value of a column in one row. -/
inductive Value
  | null
  | text (s : String)
  | bigint (n : Int64)
  | integer (n : Int32)
  | bool (b : Bool)
  | bytes (bs : Bytes)
  | texts (items : List (Option String))
deriving DecidableEq

/-- A column of a row model: its name, its type and whether it may be null. -/
structure Field where
  name : String
  type : SqlType
  nullable : Bool := false
deriving DecidableEq

/-- A column of a result row. -/
structure Cell where
  name : String
  type : SqlType
  value : Value
deriving DecidableEq

/-- A row of a query result. -/
abbrev ResultRow := List Cell

/-- Why a column of a result row cannot be read. -/
inductive CellError
  | missing (name : String)
  | undecodable (index : Nat)
deriving DecidableEq

/-- A kind of value that columns are read as: the column types it accepts, and its values. -/
class Readable (α : Type) where
  accepts : SqlType → Bool
  ofValue? : Value → Option α

instance : Readable String where
  accepts
    | .text | .varchar => true
    | _ => false
  ofValue?
    | .text s => some s
    | _ => none

instance : Readable Int64 where
  accepts
    | .int8 => true
    | _ => false
  ofValue?
    | .bigint n => some n
    | _ => none

instance : Readable Int32 where
  accepts
    | .int4 => true
    | _ => false
  ofValue?
    | .integer n => some n
    | _ => none

instance : Readable Bool where
  accepts
    | .bool => true
    | _ => false
  ofValue?
    | .bool b => some b
    | _ => none

instance : Readable Bytes where
  accepts
    | .bytea => true
    | _ => false
  ofValue?
    | .bytes bs => some bs
    | _ => none

instance : Readable (List String) where
  accepts
    | .textArray => true
    | _ => false
  ofValue?
    | .texts items => items.mapM id
    | _ => none

instance {α : Type} [Readable α] : Readable (Option α) where
  accepts := Readable.accepts α
  ofValue?
    | .null => some none
    | v => (Readable.ofValue? v).map some

/-- Reads the column of a name. -/
def ResultRow.get {α : Type} [Readable α] (row : ResultRow) (name : String) : Except CellError α :=
  let index := row.findIdx (·.name = name)
  match row[index]? with
  | none => .error (.missing name)
  | some cell =>
    if Readable.accepts α cell.type then
      match Readable.ofValue? cell.value with
      | some v => .ok v
      | none => .error (.undecodable index)
    else .error (.undecodable index)

/-- A value that may be null. -/
def Value.ofOption {α : Type} (f : α → Value) : Option α → Value
  | none => .null
  | some a => f a

end ChainMigration
