import ChainMigration.Engine.Work

/-! # Scripts

Scripts tell how reads, writes and copies go, so that an engine can be run without databases. -/

namespace ChainMigration

/-- How the reads and writes of a range of a table go. -/
structure RangeScript where
  answer : Except MigrationError OldRows
  /-- The read waits until it is released. -/
  held : Bool
  writeError : Option MigrationError

/-- How everything goes. What has no script goes well: there are no rows to read, and rows are
written and pages copied. -/
structure Scripts where
  /-- The scripts of ranges, the latest first. -/
  ranges : List ((Table × BlockRange) × RangeScript) := []
  /-- Why segments fail to be copied. -/
  failures : List (BlockRange × MigrationError) := []
  /-- Copies wait until they are released. -/
  holdsCopies : Bool := false

namespace Scripts

/-- The script of a range of a table. -/
def find? (s : Scripts) (t : Table) (range : BlockRange) : Option RangeScript :=
  (s.ranges.find? (·.1 = (t, range))).map (·.2)

/-- Puts a script into force, in front of those that are there. -/
def add (s : Scripts) (t : Table) (range : BlockRange) (script : RangeScript) : Scripts :=
  { s with ranges := ((t, range), script) :: s.ranges }

/-- The answer to a read. -/
def read (s : Scripts) (t : Table) (range : BlockRange) : Except MigrationError OldRows :=
  ((s.find? t range).map (·.answer)).getD (.ok ⟨t, []⟩)

/-- The read of a range has to wait. -/
def holds (s : Scripts) (t : Table) (range : BlockRange) : Bool :=
  ((s.find? t range).map (·.held)).getD false

/-- The answer to a write. -/
def write (s : Scripts) (t : Table) (range : BlockRange) (rows : NewRows) :
    Except MigrationError Nat :=
  match (s.find? t range).bind (·.writeError) with
  | some reason => .error reason
  | none => .ok rows.rows.length

/-- The answer to a copy. -/
def copy (s : Scripts) (pages : BlockRange) : Except MigrationError Nat :=
  match s.failures.find? (·.1 = pages) with
  | some (_, reason) => .error reason
  | none => .ok pages.len

/-- Endpoints that follow scripts, where nothing waits. -/
def endpoints (s : Scripts) (bounds : Except MigrationError (UInt64 × UInt64))
    (lastPage : String → Except MigrationError UInt64) : Endpoints where
  read := s.read
  write := s.write
  bounds := bounds
  lastPage := lastPage
  copy _ := s.copy

end Scripts

end ChainMigration
