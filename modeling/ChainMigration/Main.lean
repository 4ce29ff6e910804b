import ChainMigration.Cli.Program
import Std.Time.DateTime.Timestamp

/-! # The program as it is started

Hands the command line, the variables, the clock and the files to the program, and then does to the
files and the streams what the program did. There is no client for databases here, so no server
answers. -/

namespace ChainMigration

/-- The path of a place. -/
def Location.path (place : Location) : String := "/" ++ "/".intercalate place

/-- What is in a place outside. -/
def Location.load (place : Location) : IO (Option FileEntry) := do
  try return some (.file (← IO.FS.readBinFile place.path))
  catch
    | .inappropriateType .. => return some .directory
    | _ => return none

/-- The tree with everything that is on some paths outside. -/
def FileTree.load (t : FileTree) (paths : List String) : IO FileTree :=
  (paths.flatMap t.places).foldlM (fun t place => do
    if (t.find? place).isSome then return t
    else match ← place.load with
      | some entry => return t.put place entry
      | none => return t) t

/-- Does outside what changed a tree into another one: directories are made and files grow. -/
def FileTree.store (before after : FileTree) : IO Unit :=
  after.entries.forM fun (place, entry) => do
    match entry, before.find? place with
    | .directory, some _ => pure ()
    | .directory, none => IO.FS.createDirAll place.path
    | .file content, found =>
      let old := match found with
        | some (.file content) => content.size
        | _ => 0
      let handle ← IO.FS.Handle.mk place.path .append
      handle.write (content.extract old content.size)

/-- The variables that are set. -/
def Environment.load : IO Environment := do
  let settings ← Config.variables.mapM fun name => return (name, ← IO.getEnv name)
  return fun name => (settings.find? (·.1 = name)).bind (·.2)

/-- A new identifier of a run. -/
def RunId.fresh : IO RunId := do
  return ⟨(← IO.getRandomBytes 16).data.foldl (fun n b => 256 * n + b.toNat) 0⟩

/-- Runs the program and tells the exit status. -/
def Program.start (words : List String) : IO UInt32 := do
  let environment ← Environment.load
  let base : FileTree := ⟨FileTree.components (← IO.currentDir).toString, []⟩
  let files ← base.load (Program.paths words environment base)
  let files ← files.load (Program.paths words environment files)
  let now : Timestamp := ⟨(← Std.Time.Timestamp.now).toMillisecondsSinceUnixEpoch.val⟩
  let ending := Program.run words
    ⟨environment, .absent, none, ← RunId.fresh, now, now, ⟨0, 0⟩⟩ files
  files.store ending.state.files
  IO.print ending.state.output
  IO.eprint ending.state.diagnostics
  return ending.exitCode.toUInt32

end ChainMigration

/-- The entry point. -/
def main (words : List String) : IO UInt32 := ChainMigration.Program.start words
