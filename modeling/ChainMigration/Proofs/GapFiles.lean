import ChainMigration.Proofs.FileTrees
import ChainMigration.Run.Migration

/-! # The gap files of a table

The name of a gap file tells its table, so where the gap files of a run lie depends on the places of
the two directories alone (`gapPlace_eq_iff`). Opening them keeps all files (`keeps_openGapFiles`).
In directories that are there anyway nothing is in the way of gap files but a file or a directory of
the same name (`run_openGapFiles`). -/

namespace ChainMigration

variable {s : RunSetting} {files : FileTree} {t : Table} {kind : GapKind}

/-! ### Names -/

theorem Table.name_injective : ∀ {t u : Table}, t.name = u.name → t = u := by
  intro t u h
  cases t <;> cases u <;> first | rfl | exact absurd h (by decide)

theorem fileName_toList (name : String) (seconds : Int) :
    (GapFile.fileName name seconds).toList = name.toList ++ '_' :: (toString seconds).toList := by
  show (toString name ++ "_" ++ toString seconds).toList = _
  rw [String.toList_append, String.toList_append, List.append_assoc]
  rfl

theorem not_mem_toString_int {c : Char} (hc : c.isDigit = false) (hminus : c ≠ '-') (n : Int) :
    c ∉ (toString n).toList := by
  cases n with
  | ofNat n => exact not_mem_digits hc n
  | negSucc n =>
    show c ∉ ("-" ++ (n + 1).repr).toList
    rw [String.toList_append, List.mem_append, not_or]
    exact ⟨fun h => hminus (List.mem_singleton.mp h), not_mem_digits hc (n + 1)⟩

theorem not_mem_fileName (t : Table) (seconds : Int) :
    '/' ∉ (GapFile.fileName t.name seconds).toList := by
  have hname : '/' ∉ t.name.toList := by cases t <;> decide
  rw [fileName_toList, List.mem_append, List.mem_cons, not_or, not_or]
  exact ⟨hname, by decide, not_mem_toString_int (by decide) (by decide) seconds⟩

theorem fileName_ne_empty (t : Table) (seconds : Int) : GapFile.fileName t.name seconds ≠ "" := by
  rw [ne_eq, ← String.toList_eq_nil_iff, fileName_toList]
  exact List.append_ne_nil_of_right_ne_nil _ (List.cons_ne_nil _ _)

theorem isRelative_fileName (t : Table) (seconds : Int) :
    FileTree.isRelative (GapFile.fileName t.name seconds) = false := by
  have hmem : '_' ∈ (GapFile.fileName t.name seconds).toList := by
    rw [fileName_toList, List.mem_append]
    exact Or.inr List.mem_cons_self
  rw [FileTree.isRelative, Bool.or_eq_false_iff, decide_eq_false_iff_not, decide_eq_false_iff_not]
  refine ⟨fun h => ?_, fun h => ?_⟩
  · rw [h] at hmem
    exact absurd hmem (by decide)
  · rw [h] at hmem
    exact absurd hmem (by decide)

/-! ### Places -/

/-- The directory for the gap files of a side. -/
def RunSetting.gapsDir (s : RunSetting) : GapKind → String
  | .read => s.readGapsDir
  | .write => s.writeGapsDir

/-- The paths of the directories and of the gap files of a table can be followed, and the names of
the gap files are short enough. -/
def RunSetting.HasShortPaths (s : RunSetting) (t : Table) : Prop :=
  FileTree.isLongName (GapFile.fileName t.name s.seconds) = false ∧
    ∀ kind, FileTree.refusal? (s.gapsDir kind) = none ∧
      FileTree.refusal? (GapFile.path (s.gapsDir kind) t.name s.seconds) = none

/-- The place of the gap file of a table and a side. -/
def gapPlace (s : RunSetting) (files : FileTree) (t : Table) (kind : GapKind) : Location :=
  files.placeOf (s.gapsDir kind) ++ [GapFile.fileName t.name s.seconds]

/-- **Gap files of different tables are different files**, and those of one table are the same
exactly if the directories are in the same place. -/
theorem gapPlace_eq_iff {u : Table} {kind' : GapKind} :
    gapPlace s files t kind = gapPlace s files u kind' ↔
      files.placeOf (s.gapsDir kind) = files.placeOf (s.gapsDir kind') ∧ t = u := by
  rw [gapPlace, gapPlace, List.append_singleton_inj]
  refine and_congr_right fun _ => ⟨fun h => ?_, fun h => by rw [h]⟩
  refine Table.name_injective ?_
  have hsame : t.name ++ ("_" ++ toString s.seconds) = u.name ++ ("_" ++ toString s.seconds) := by
    rw [← String.append_assoc, ← String.append_assoc]
    exact h
  exact (String.append_left_inj _).mp hsame

theorem gapPlace_congr {other : FileTree} (h : other.workingDirectory = files.workingDirectory)
    (t : Table) (kind : GapKind) : gapPlace s other t kind = gapPlace s files t kind := by
  rw [gapPlace, gapPlace, FileTree.placeOf, FileTree.placeOf, FileTree.origin, FileTree.origin, h]

theorem gapPlace_of_components_eq_nil (h : FileTree.components (s.gapsDir kind) = []) :
    gapPlace s files t kind =
      files.origin (s.gapsDir kind) ++ [GapFile.fileName t.name s.seconds] := by
  rw [gapPlace, FileTree.placeOf, h]
  rfl

/-! ### Opening -/

theorem keeps_openGapFiles (s : RunSetting) (t : Table) (files : FileTree) :
    files.Keeps ((openGapFiles s t).run.run files).2 ∧
      ∀ readFile writeFile after, (openGapFiles s t).run.run files =
        (.ok (readFile, writeFile), after) →
          (readFile.place = gapPlace s files t .read ∧ after.IsFile readFile.place) ∧
          (writeFile.place = gapPlace s files t .write ∧ after.IsFile writeFile.place) := by
  obtain ⟨hkeeps, hread⟩ := GapFile.keeps_create s.readGapsDir files
    (not_mem_fileName t s.seconds) (fileName_ne_empty t s.seconds)
  rw [openGapFiles]
  rcases hrun : (GapFile.create s.readGapsDir t.name s.seconds).run.run files with
    ⟨reason | readFile, opened⟩
  · rw [FileTree.run_bind_of_error hrun]
    rw [hrun] at hkeeps
    refine ⟨hkeeps, fun _ _ _ h => ?_⟩
    cases h
  · rw [FileTree.run_bind_of_ok hrun]
    rw [hrun] at hkeeps
    obtain ⟨hplace, hfile⟩ := hread readFile opened hrun
    obtain ⟨hkeeps', hwrite⟩ := GapFile.keeps_create s.writeGapsDir opened
      (not_mem_fileName t s.seconds) (fileName_ne_empty t s.seconds)
    rcases hrun' : (GapFile.create s.writeGapsDir t.name s.seconds).run.run opened with
      ⟨reason | writeFile, after⟩
    · rw [FileTree.run_bind_of_error hrun']
      rw [hrun'] at hkeeps'
      refine ⟨hkeeps.trans hkeeps', fun _ _ _ h => ?_⟩
      cases h
    · rw [FileTree.run_bind_of_ok hrun']
      rw [hrun'] at hkeeps'
      refine ⟨hkeeps.trans hkeeps', fun _ _ _ h => ?_⟩
      cases h
      obtain ⟨hplace', hfile'⟩ := hwrite writeFile after hrun'
      rw [FileTree.placeOf, FileTree.origin, hkeeps.workingDirectory] at hplace'
      exact ⟨⟨hplace, hkeeps'.isFile _ hfile⟩, hplace', hfile'⟩

namespace FileTree

theorem endsWith_slash_join (directory : String) {name : String} (hne : name ≠ "")
    (h : '/' ∉ name.toList) : (join directory name).endsWith "/" = false := by
  obtain ⟨lead, hlead⟩ : ∃ lead, join directory name = lead ++ name := by
    rw [join]
    split
    · exact ⟨"", String.empty_append.symm⟩
    · split
      · exact ⟨directory, rfl⟩
      · exact ⟨directory ++ "/", rfl⟩
  have hlist : name.toList ≠ [] := mt String.toList_eq_nil_iff.mp hne
  rw [Bool.eq_false_iff, ne_eq, hlead]
  intro hends
  obtain ⟨front, hfront⟩ := String.Slice.endsWith_string_iff.mp hends
  rw [String.copy_toSlice, String.toList_append] at hfront
  have hlast := congrArg List.getLast? hfront
  rw [List.getLast?_append_of_ne_nil _ hlist] at hlast
  exact h (List.mem_of_getLast? (hlast.symm.trans List.getLast?_concat))

theorem lookUp_of_short {parent : Location} {name : String} (hshort : isLongName name = false)
    (t : FileTree) : t.lookUp (parent ++ [name]) = .ok (t.find? (parent ++ [name])) := by
  rw [lookUp, List.getLast?_concat, Option.any_some, hshort, if_neg Bool.false_ne_true]

/-- Opening a file is decided by what is found in the place that the path leads to. -/
theorem run_openToAppend {path : String} {t : FileTree} {place : Location} (hne : path ≠ "")
    (hrefusal : refusal? path = none)
    (htarget : t.target (t.origin path) (components path) = .ok (some place))
    (hslash : path.endsWith "/" = false) (hlook : t.lookUp place = .ok (t.find? place)) :
    (t.find? place = none →
        (openToAppend path).run.run t = (.ok place, t.put place (.file .empty))) ∧
      (∀ content, t.find? place = some (.file content) →
        (openToAppend path).run.run t = (.ok place, t)) ∧
      (t.find? place = some .directory →
        (openToAppend path).run.run t = (.error .isDirectory, t)) := by
  rw [openToAppend,
    run_bind_of_ok (show (get : FileAction FileTree).run.run t = (.ok t, t) from rfl), hrefusal]
  simp only [hne, htarget, hslash, hlook, ↓reduceIte, Bool.false_eq_true]
  refine ⟨fun h => ?_, fun content h => ?_, fun h => ?_⟩ <;>
  · rw [h]
    rfl

end FileTree

/-- In the root and in the working directory, only what has the name of a gap file is in its way. -/
theorem run_createGapFile (t : Table) (files : FileTree)
    (hdirectory : FileTree.components (s.gapsDir kind) = []) (hshort : s.HasShortPaths t) :
    let place := gapPlace s files t kind
    (files.find? place = none →
        (GapFile.create (s.gapsDir kind) t.name s.seconds).run.run files =
          (.ok ⟨place⟩, files.put place (.file .empty))) ∧
      (∀ content, files.find? place = some (.file content) →
        (GapFile.create (s.gapsDir kind) t.name s.seconds).run.run files =
          (.ok ⟨place⟩, files)) ∧
      (files.find? place = some .directory →
        (GapFile.create (s.gapsDir kind) t.name s.seconds).run.run files =
          (.error .isDirectory, files)) := by
  intro place
  set directory := s.gapsDir kind
  set name := GapFile.fileName t.name s.seconds with hfileName
  have hne : name ≠ "" := fileName_ne_empty t s.seconds
  have hname : '/' ∉ name.toList := not_mem_fileName t s.seconds
  have hcomponents : FileTree.components (FileTree.join directory name) = [name] := by
    rw [FileTree.components_join directory hne hname, hdirectory]
    rfl
  have hpath : FileTree.join directory name ≠ "" := by
    intro hempty
    rw [hempty, FileTree.components_empty] at hcomponents
    cases hcomponents
  have hmade : (FileTree.makePath directory).run.run files = (.ok (), files) := by
    rw [FileTree.makePath, (hshort.2 kind).1]
    show (FileTree.makeDirectories (files.origin directory) (FileTree.components directory).length
      (FileTree.components directory)).run.run files = _
    rw [hdirectory]
    rfl
  have hplace : place = files.origin directory ++ [name] :=
    gapPlace_of_components_eq_nil hdirectory
  have htarget : files.target (files.origin (FileTree.join directory name))
      (FileTree.components (FileTree.join directory name)) = .ok (some place) := by
    rw [FileTree.origin_join files directory hname, hcomponents, hplace]
    show Except.ok (if FileTree.isRelative name then none else _) = _
    rw [hfileName, isRelative_fileName]
    rfl
  have hlook : files.lookUp place = .ok (files.find? place) :=
    hplace ▸ FileTree.lookUp_of_short hshort.1 files
  obtain ⟨hfree, hthere, htaken⟩ := FileTree.run_openToAppend hpath (hshort.2 kind).2 htarget
    (FileTree.endsWith_slash_join directory hne hname) hlook
  rw [GapFile.create, FileTree.run_bind_of_ok hmade]
  refine ⟨fun h => ?_, fun content h => ?_, fun h => ?_⟩
  · exact FileTree.run_bind_of_ok (hfree h)
  · exact FileTree.run_bind_of_ok (hthere content h)
  · exact FileTree.run_bind_of_error (htaken h)

/-- **The gap files of a table can be opened** in the root and in the working directory if their
names are not taken. -/
theorem run_openGapFiles (s : RunSetting) (t : Table) (files : FileTree)
    (hdirectory : ∀ kind, FileTree.components (s.gapsDir kind) = []) (hshort : s.HasShortPaths t)
    (hfree : ∀ kind, files.find? (gapPlace s files t kind) = none) :
    let opened := files.put (gapPlace s files t .read) (.file .empty)
    (openGapFiles s t).run.run files =
      (.ok (⟨gapPlace s files t .read⟩, ⟨gapPlace s files t .write⟩),
        if gapPlace s files t .write = gapPlace s files t .read then opened
        else opened.put (gapPlace s files t .write) (.file .empty)) := by
  intro opened
  have hfirst := (run_createGapFile t files (hdirectory .read) hshort).1 (hfree .read)
  have hne : gapPlace s files t .read ≠ [] :=
    List.append_ne_nil_of_right_ne_nil _ (List.cons_ne_nil _ _)
  have hfind := files.find?_put hne (.file .empty) (gapPlace s files t .write)
  obtain ⟨hmade, hthere, -⟩ := run_createGapFile t opened (hdirectory .write) hshort
  rw [gapPlace_congr (files.workingDirectory_put _ _)] at hmade hthere
  refine (FileTree.run_bind_of_ok hfirst).trans ?_
  by_cases hsame : gapPlace s files t .write = gapPlace s files t .read
  · rw [if_pos hsame] at hfind ⊢
    exact FileTree.run_bind_of_ok (hthere .empty hfind)
  · rw [if_neg hsame, hfree .write] at hfind
    rw [if_neg hsame]
    exact FileTree.run_bind_of_ok (hmade hfind)

/-- A directory in the place of its first gap file keeps a table from being started. -/
theorem run_openGapFiles_of_directory (hdirectory : FileTree.components (s.gapsDir .read) = [])
    (hshort : s.HasShortPaths t)
    (htaken : files.find? (gapPlace s files t .read) = some .directory) :
    (openGapFiles s t).run.run files = (.error .isDirectory, files) := by
  have hcreate := (run_createGapFile t files hdirectory hshort).2.2 htaken
  exact FileTree.run_bind_of_error hcreate

end ChainMigration
