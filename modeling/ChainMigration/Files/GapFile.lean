import ChainMigration.Block.Gap
import ChainMigration.Files.Tree

/-! # Gap files

A gap file collects the records of gaps. It lies in a directory of gap files and its name ends with
the time at which the run began, so that runs do not share files; a file that is already there keeps
what it has. -/

namespace ChainMigration

/-- An open gap file. -/
structure GapFile where
  place : Location
deriving DecidableEq

namespace GapFile

/-- The path of a gap file: the name and the time in seconds, in a directory. -/
def path (directory name : String) (seconds : Int) : String :=
  FileTree.join directory s!"{name}_{seconds}"

/-- Opens a gap file, in a directory that is made if it is not there. -/
def create (directory name : String) (seconds : Int) : FileAction GapFile := do
  FileTree.makePath directory
  return ⟨← FileTree.openToAppend (path directory name seconds)⟩

/-- Appends the record of a gap. -/
def append (file : GapFile) (gap : Gap) (files : FileTree) : FileTree :=
  files.append file.place gap.record

/-- Appends the records of gaps. -/
def appendAll (file : GapFile) (gaps : List Gap) (files : FileTree) : FileTree :=
  gaps.foldl (fun t g => file.append g t) files

end GapFile

end ChainMigration
