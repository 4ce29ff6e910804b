import ChainMigration.Files.GapFile
import ChainMigration.Proofs.GapRecords
import ChainMigration.Proofs.Paths

/-! # What opening and appending do to a tree of files

Making directories and opening files to append to them keeps every file with its content; what is
made in a free place is a directory or an empty file (`Keeps`). Appending to a file changes this
file alone (`contentAt_append`). So whatever else happens in a tree, a file holds what it held at
first and then what was appended to it, in order. -/

namespace ChainMigration

namespace FileTree

variable {t made after : FileTree} {place : Location}

/-! ### Looking up what was put -/

theorem fst_eq_of_find? {entries : List (Location × FileEntry)} {e : Location × FileEntry}
    (h : entries.find? (·.1 = place) = some e) : e.1 = place := by
  have hfound := List.find?_some h
  exact of_decide_eq_true hfound

theorem find?_put (hne : place ≠ []) (entry : FileEntry) (other : Location) :
    (t.put place entry).find? other = if other = place then some entry else t.find? other := by
  by_cases hroot : other = []
  · have hother : ¬ other = place := fun h => hne (h.symm.trans hroot)
    rw [find?, if_pos hroot, find?, if_pos hroot, if_neg hother]
  rw [find?, if_neg hroot]
  unfold put
  split
  · next hsome =>
    -- The entries of the place are replaced, and none changes its place.
    have hplaces : ((fun e : Location × FileEntry => decide (e.1 = other)) ∘
        fun e => if e.1 = place then (place, entry) else e) = fun e => decide (e.1 = other) := by
      funext e
      dsimp only [Function.comp_apply]
      split
      · next h => rw [h]
      · rfl
    dsimp only
    rw [List.find?_map, hplaces, Option.map_map]
    by_cases hother : other = place
    · subst hother
      rw [find?, if_neg hne, Option.isSome_map] at hsome
      obtain ⟨e, he⟩ := Option.isSome_iff_exists.mp hsome
      rw [he, if_pos rfl, Option.map_some, Function.comp_apply,
        if_pos (fst_eq_of_find? he)]
    · rw [if_neg hother, find?, if_neg hroot]
      refine Option.map_congr fun e he => ?_
      rw [Function.comp_apply, if_neg (fst_eq_of_find? he ▸ hother)]
  · next hnone =>
    dsimp only
    rw [List.find?_append]
    by_cases hother : other = place
    · subst hother
      have hfree : t.entries.find? (·.1 = other) = none := by
        rw [find?, if_neg hne, Option.isSome_map] at hnone
        exact Option.not_isSome_iff_eq_none.mp hnone
      rw [hfree, Option.none_or, List.find?_singleton, if_pos (decide_eq_true rfl), if_pos rfl]
      rfl
    · have hnot : [(place, entry)].find? (·.1 = other) = none := by
        rw [List.find?_singleton, if_neg]
        exact fun h => hother (of_decide_eq_true h).symm
      rw [hnot, Option.or_none, if_neg hother, find?, if_neg hroot]

theorem workingDirectory_put (t : FileTree) (place : Location) (entry : FileEntry) :
    (t.put place entry).workingDirectory = t.workingDirectory := by
  unfold put
  split <;> rfl

theorem ne_nil_of_find?_ne {entry : FileEntry} (h : t.find? place = some entry)
    (hentry : entry ≠ .directory) : place ≠ [] := by
  rintro rfl
  exact hentry (Option.some.inj h).symm

theorem find?_of_lookUp {found : Option FileEntry} (h : t.lookUp place = .ok found) :
    t.find? place = found := by
  rw [lookUp] at h
  split at h
  · cases h
  · exact Except.ok.inj h

/-! ### Contents -/

/-- What the file in a place holds; nothing if there is no file. -/
def contentAt (t : FileTree) (place : Location) : ByteArray :=
  match t.find? place with
  | some (.file content) => content
  | _ => .empty

/-- There is a file in the place. -/
def IsFile (t : FileTree) (place : Location) : Prop :=
  ∃ content, t.find? place = some (.file content)

theorem contentAt_eq {content : ByteArray} (h : t.find? place = some (.file content)) :
    t.contentAt place = content := by
  rw [contentAt, h]

theorem IsFile.find?_eq (h : t.IsFile place) :
    t.find? place = some (.file (t.contentAt place)) := by
  obtain ⟨content, h⟩ := h
  rw [contentAt_eq h, h]

/-- **The later tree keeps all files** with their contents, and paths lead to the same places. -/
structure Keeps (t after : FileTree) : Prop where
  workingDirectory : after.workingDirectory = t.workingDirectory
  isFile : ∀ place, t.IsFile place → after.IsFile place
  contentAt : ∀ place, after.contentAt place = t.contentAt place

namespace Keeps

theorem refl (t : FileTree) : t.Keeps t := ⟨rfl, fun _ => id, fun _ => rfl⟩

theorem trans (h : t.Keeps made) (h' : made.Keeps after) : t.Keeps after where
  workingDirectory := h'.workingDirectory.trans h.workingDirectory
  isFile place := h'.isFile place ∘ h.isFile place
  contentAt place := (h'.contentAt place).trans (h.contentAt place)

theorem put (hfree : t.find? place = none) {entry : FileEntry}
    (hentry : entry = .directory ∨ entry = .file .empty) : t.Keeps (t.put place entry) := by
  have hne : place ≠ [] := by
    rintro rfl
    cases hfree
  refine ⟨workingDirectory_put t place entry, ?_, fun other => ?_⟩
  · rintro other ⟨content, h⟩
    have hother : other ≠ place := by
      rintro rfl
      cases hfree.symm.trans h
    exact ⟨content, by rw [find?_put hne, if_neg hother, h]⟩
  · rw [FileTree.contentAt, FileTree.contentAt, find?_put hne]
    by_cases hother : other = place
    · rw [if_pos hother, hother, hfree]
      rcases hentry with rfl | rfl <;> rfl
    · rw [if_neg hother]

end Keeps

/-! ### Actions -/

theorem run_bind_of_ok {α β : Type} {x : FileAction α} {f : α → FileAction β} {a : α}
    (h : x.run.run t = (.ok a, after)) : (x >>= f).run.run t = (f a).run.run after := by
  rw [ExceptT.run_bind, StateT.run_bind, h]
  rfl

theorem run_bind_of_error {α β : Type} {x : FileAction α} {f : α → FileAction β}
    {reason : FileError} (h : x.run.run t = (.error reason, after)) :
    (x >>= f).run.run t = (.error reason, after) := by
  rw [ExceptT.run_bind, StateT.run_bind, h]
  rfl

/-- An action keeps all files, whatever it comes to. -/
def KeepsFiles {α : Type} (x : FileAction α) : Prop := ∀ t : FileTree, t.Keeps (x.run.run t).2

theorem keepsFiles_bind {α β : Type} {x : FileAction α} {f : α → FileAction β} (hx : KeepsFiles x)
    (hf : ∀ a, KeepsFiles (f a)) : KeepsFiles (x >>= f) := by
  intro t
  have hfirst := hx t
  rcases hrun : x.run.run t with ⟨reason | a, after⟩
  · rw [run_bind_of_error hrun]
    rwa [hrun] at hfirst
  · rw [run_bind_of_ok hrun]
    rw [hrun] at hfirst
    exact hfirst.trans (hf a after)

theorem keepsFiles_get {α : Type} {f : FileTree → FileAction α}
    (hf : ∀ t : FileTree, t.Keeps ((f t).run.run t).2) : KeepsFiles (get >>= f) := by
  intro t
  rw [run_bind_of_ok (show (get : FileAction FileTree).run.run t = (.ok t, t) from rfl)]
  exact hf t

theorem keepsFiles_pure {α : Type} (a : α) : KeepsFiles (pure a) := fun t => .refl t

theorem keepsFiles_throw {α : Type} (reason : FileError) :
    KeepsFiles (throw reason : FileAction α) := fun t => .refl t

theorem Keeps.makeDirectory {base : Location} {names : List String}
    (h : t.makeDirectory base names = .ok made) : t.Keeps made := by
  obtain ⟨target, -, h⟩ := bind_eq_ok.mp h
  cases target with
  | none => cases h
  | some place =>
    obtain ⟨found, hfound, h⟩ := bind_eq_ok.mp h
    cases found with
    | some entry => cases h
    | none =>
      cases h
      exact .put (find?_of_lookUp hfound) (Or.inl rfl)

theorem keepsFiles_makeDirectories (base : Location) :
    ∀ (depth : Nat) (names : List String), KeepsFiles (makeDirectories base depth names)
  | 0, _ => keepsFiles_pure ()
  | depth + 1, names => by
    -- A directory that cannot be made is looked for, which changes nothing.
    have hlook : ∀ (t : FileTree) (reason : FileError), t.Keeps ((if t.isDirectory base names
        then (pure () : FileAction Unit) else throw reason).run.run t).2 := by
      intro t reason
      split
      · exact .refl t
      · exact .refl t
    rw [makeDirectories]
    refine keepsFiles_get fun t => ?_
    split
    · next made hmade => exact .makeDirectory hmade
    · refine keepsFiles_bind (keepsFiles_makeDirectories base depth names.dropLast) ?_ t
      refine fun _ => keepsFiles_get fun t => ?_
      split
      · next made hmade => exact .makeDirectory hmade
      · exact hlook t _
    · exact hlook t _

theorem keepsFiles_makePath (path : String) : KeepsFiles (makePath path) := by
  have hmake : KeepsFiles (do
      let t ← get
      makeDirectories (t.origin path) (components path).length (components path)) :=
    keepsFiles_get fun t => keepsFiles_makeDirectories (t.origin path) _ (components path) t
  unfold makePath
  cases refusal? path with
  | some reason => exact keepsFiles_bind (keepsFiles_throw reason) fun _ => hmake
  | none => exact hmake

/-- **Opening a file** keeps all files; what is opened is a file in the place that the path leads
to. -/
theorem keeps_openToAppend (path : String) (t : FileTree) :
    t.Keeps ((openToAppend path).run.run t).2 ∧
      ∀ place after, (openToAppend path).run.run t = (.ok place, after) →
        t.target (t.origin path) (components path) = .ok (some place) ∧ after.IsFile place := by
  rw [openToAppend,
    run_bind_of_ok (show (get : FileAction FileTree).run.run t = (.ok t, t) from rfl)]
  have hthrow : ∀ (reason : FileError) (P : Location → FileTree → Prop),
      t.Keeps ((throw reason : FileAction Location).run.run t).2 ∧ ∀ place after,
        (throw reason : FileAction Location).run.run t = (.ok place, after) → P place after := by
    refine fun reason P => ⟨.refl t, fun place after h => ?_⟩
    cases h
  by_cases hpath : path = ""
  · simp only [hpath, ↓reduceIte]
    exact hthrow .notFound _
  cases refusal? path with
  | some reason =>
    simp only [hpath, ↓reduceIte]
    exact hthrow reason _
  | none =>
    simp only [hpath, ↓reduceIte]
    cases htarget : t.target (t.origin path) (components path) with
    | error reason => exact hthrow reason _
    | ok target =>
      cases target with
      | none => exact hthrow .isDirectory _
      | some place =>
        by_cases hslash : path.endsWith "/" = true
        · simp only [hslash, ↓reduceIte]
          exact hthrow .isDirectory _
        simp only [hslash, Bool.false_eq_true, ↓reduceIte]
        rcases hlook : t.lookUp place with reason | found
        · exact hthrow reason _
        have hfind := find?_of_lookUp hlook
        rcases found with _ | _ | content
        · have hne : place ≠ [] := by
            rintro rfl
            cases hfind
          refine ⟨.put hfind (Or.inr rfl), fun opened after h => ?_⟩
          cases h
          exact ⟨rfl, .empty, by rw [find?_put hne, if_pos rfl]⟩
        · exact hthrow .isDirectory _
        · refine ⟨.refl t, fun opened after h => ?_⟩
          cases h
          exact ⟨rfl, content, hfind⟩

/-! ### Appending -/

theorem find?_append (h : t.IsFile place) (text : String) (other : Location) :
    (t.append place text).find? other =
      if other = place then some (.file (t.contentAt place ++ text.toUTF8)) else t.find? other := by
  have hne : place ≠ [] := ne_nil_of_find?_ne h.find?_eq nofun
  rw [append, h.find?_eq]
  exact find?_put hne _ other

theorem workingDirectory_append (t : FileTree) (place : Location) (text : String) :
    (t.append place text).workingDirectory = t.workingDirectory := by
  unfold append
  split
  · exact workingDirectory_put ..
  · rfl

theorem isFile_append (h : t.IsFile place) (text : String) {other : Location}
    (hother : t.IsFile other) : (t.append place text).IsFile other := by
  unfold IsFile
  rw [find?_append h]
  split
  · exact ⟨_, rfl⟩
  · exact hother

/-- **Appending** adds a text to one file. -/
theorem contentAt_append (h : t.IsFile place) (text : String) (other : Location) :
    (t.append place text).contentAt other =
      t.contentAt other ++ (if other = place then text else "").toUTF8 := by
  rw [contentAt, find?_append h]
  by_cases hother : other = place
  · rw [if_pos hother, if_pos hother, hother]
  · rw [if_neg hother, if_neg hother]
    exact (ByteArray.append_empty).symm

end FileTree

/-! ### Gap files -/

namespace GapFile

open FileTree

/-- The name of a gap file. -/
def fileName (name : String) (seconds : Int) : String := s!"{name}_{seconds}"

/-- **Creating a gap file** keeps all files; its place is its name in the place of the directory,
and there is a file then. -/
theorem keeps_create (directory : String) {name : String} {seconds : Int} (t : FileTree)
    (hname : '/' ∉ (fileName name seconds).toList) (hne : fileName name seconds ≠ "") :
    t.Keeps ((create directory name seconds).run.run t).2 ∧
      ∀ file after, (create directory name seconds).run.run t = (.ok file, after) →
        file.place = t.placeOf directory ++ [fileName name seconds] ∧ after.IsFile file.place := by
  have hmade := keepsFiles_makePath directory t
  rw [create]
  rcases hrun : (makePath directory).run.run t with ⟨reason | ⟨⟩, made⟩
  · rw [run_bind_of_error hrun]
    rw [hrun] at hmade
    refine ⟨hmade, fun file after h => ?_⟩
    cases h
  · rw [run_bind_of_ok hrun]
    rw [hrun] at hmade
    obtain ⟨hkeeps, hopen⟩ := keeps_openToAppend (path directory name seconds) made
    rcases hrun' : (openToAppend (path directory name seconds)).run.run made with
      ⟨reason | place, opened⟩
    · rw [run_bind_of_error hrun']
      rw [hrun'] at hkeeps
      refine ⟨hmade.trans hkeeps, fun file after h => ?_⟩
      cases h
    · rw [run_bind_of_ok hrun']
      rw [hrun'] at hkeeps
      refine ⟨hmade.trans hkeeps, fun file after h => ?_⟩
      cases h
      obtain ⟨htarget, hfile⟩ := hopen place opened hrun'
      refine ⟨?_, hfile⟩
      have hplace := eq_of_target_join hne hname htarget
      rw [placeOf, origin, hmade.workingDirectory] at hplace
      exact hplace

end GapFile

end ChainMigration
