import ChainMigration.Table.Catalog

/-! # Migration policy

How many workers a table gets, and how empty and failed reads are reported. -/

namespace ChainMigration

/-- The policy that all tables of a run share. -/
structure Policy where
  /-- The number of workers that a table is given; zero counts as one. -/
  workers : Nat
  /-- The tables for which a read without rows is a gap. -/
  mustExist : List Table
  /-- Every failed read is a gap, of whatever table. -/
  gapOnAnyReadFailure : Bool
deriving DecidableEq

namespace Policy

/-- The tables for which a read without rows is a gap unless the configuration names others. -/
def defaultMustExist : List Table := Table.all.filter (·.mustExist)

/-- A read of the table without rows is a gap. -/
def requires (p : Policy) (t : Table) : Bool := p.mustExist.contains t

/-- On which side a failed read of the table is reported as a gap. -/
def readFailureGap (p : Policy) (t : Table) : Option GapKind :=
  if p.requires t then some .read
  else if t.readFailureGap = some .write then some .write
  else if p.gapOnAnyReadFailure then some .read
  else none

/-- How many workers a table gets. -/
def workersPerTable (p : Policy) : Nat := max p.workers 1

end Policy

end ChainMigration
