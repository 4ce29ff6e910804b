import ChainMigration.Error

/-! # Trees of files

Directories and text files, and what opening a file, reading one and making directories do to them.
A path is followed component by component from the working directory, or from the root if it begins
with a slash, and every component on the way must be a directory that is there. -/

namespace ChainMigration

/-- What a tree holds in one place. -/
inductive FileEntry
  | directory
  | file (content : ByteArray)

/-- A place in a tree: the names on the way from the root. -/
abbrev Location := List String

/-- A tree of files. The root is always there. -/
structure FileTree where
  workingDirectory : Location
  entries : List (Location × FileEntry)

/-- An action on a tree. What it did before an error stays done. -/
abbrev FileAction := ExceptT FileError (StateM FileTree)

namespace FileTree

/-- What is in a place. -/
def find? (t : FileTree) (place : Location) : Option FileEntry :=
  if place = [] then some .directory
  else (t.entries.find? (·.1 = place)).map (·.2)

/-- Puts an entry into a place. -/
def put (t : FileTree) (place : Location) (entry : FileEntry) : FileTree :=
  if (t.find? place).isSome then
    { t with entries := t.entries.map fun e => if e.1 = place then (place, entry) else e }
  else { t with entries := t.entries ++ [(place, entry)] }

/-- The files in a directory with their contents, in the order in which they were made; none if it
is not there. -/
def filesIn? (t : FileTree) (place : Location) : Option (List (String × ByteArray)) :=
  match t.find? place with
  | some .directory => some <| t.entries.filterMap fun
      | (p, .file content) =>
        if p.dropLast = place then p.getLast?.map fun name => (name, content) else none
      | _ => none
  | _ => none

/-! ### Paths -/

/-- Why a path is not followed at all: it has a zero character, or more bytes than a system call
takes. -/
def refusal? (path : String) : Option FileError :=
  if '\x00' ∈ path.toList then some .zeroCharacter
  else if 4096 ≤ path.utf8ByteSize then some .nameTooLong
  else none

/-- The name has more bytes than names in a directory can have. -/
def isLongName (name : String) : Bool := 255 < name.utf8ByteSize

/-- What is found where something is looked for in a directory. -/
def lookUp (t : FileTree) (place : Location) : Except FileError (Option FileEntry) :=
  if place.getLast?.any isLongName then .error .nameTooLong else .ok (t.find? place)

/-- The components of a path. -/
def components (path : String) : List String := ((path.splitOn "/").filter (· ≠ ""))

/-- The directory from which a path is followed. -/
def origin (t : FileTree) (path : String) : Location :=
  if path.startsWith "/" then [] else t.workingDirectory

/-- A component that stands for a directory relative to another one. -/
def isRelative (name : String) : Bool := name = "." || name = ".."

/-- Follows components, all of which must lead to directories. -/
def walk (t : FileTree) (place : Location) : List String → Except FileError Location
  | [] => .ok place
  | name :: names =>
    if name = "." then t.walk place names
    else if name = ".." then t.walk place.dropLast names
    else
      match t.lookUp (place ++ [name]) with
      | .error reason => .error reason
      | .ok none => .error .notFound
      | .ok (some (.file _)) => .error .notDirectory
      | .ok (some .directory) => t.walk (place ++ [name]) names

/-- The places that a path leads through, the last one included. -/
def places (t : FileTree) (path : String) : List Location :=
  let next (place : Location) (name : String) : Location :=
    if name = "." then place else if name = ".." then place.dropLast else place ++ [name]
  go next (t.origin path) (components path)
where
  /-- The places behind a first one. -/
  go (next : Location → String → Location) (place : Location) : List String → List Location
    | [] => [place]
    | name :: names => place :: go next (next place name) names

/-- The place that components lead to, whose last one need not be there; none if it is a directory
by its form. -/
def target (t : FileTree) (base : Location) (names : List String) :
    Except FileError (Option Location) :=
  match names.getLast? with
  | none => .ok none
  | some name => do
    let parent ← t.walk base names.dropLast
    return if isRelative name then none else some (parent ++ [name])

/-- A path in a directory; a path that begins with a slash stands for itself. -/
def join (directory name : String) : String :=
  if name.startsWith "/" || directory = "" then name
  else if directory.endsWith "/" then directory ++ name
  else directory ++ "/" ++ name

/-- A path without the slashes and the components that lead nowhere in front of it. -/
def withoutLead : List Char → List Char
  | '/' :: path => withoutLead path
  | '.' :: '/' :: path => withoutLead path
  | path => path

/-! ### Actions -/

/-- The content of a file. -/
def read (t : FileTree) (path : String) : Except FileError ByteArray :=
  if path = "" then .error .notFound
  else if let some reason := refusal? path then .error reason
  else do
    match ← t.target (t.origin path) (components path) with
    | none => .error .isDirectory
    | some place =>
      match ← t.lookUp place with
      | none => .error .notFound
      | some .directory => .error .isDirectory
      | some (.file content) => if path.endsWith "/" then .error .notDirectory else .ok content

/-- Opens a file to append to it; it is made if it is not there. -/
def openToAppend (path : String) : FileAction Location := do
  let t ← get
  if path = "" then throw .notFound
  if let some reason := refusal? path then throw reason
  match t.target (t.origin path) (components path) with
  | .error reason => throw reason
  | .ok none => throw .isDirectory
  | .ok (some place) =>
    if path.endsWith "/" then throw .isDirectory
    match t.lookUp place with
    | .error reason => throw reason
    | .ok (some .directory) => throw .isDirectory
    | .ok (some (.file _)) => return place
    | .ok none =>
      set (t.put place (.file .empty))
      return place

/-- Appends a text to an open file. -/
def append (t : FileTree) (place : Location) (text : String) : FileTree :=
  match t.find? place with
  | some (.file content) => t.put place (.file (content ++ text.toUTF8))
  | _ => t

/-- Makes one directory. -/
def makeDirectory (t : FileTree) (base : Location) (names : List String) :
    Except FileError FileTree := do
  match ← t.target base names with
  | none => .error .exists
  | some place =>
    match ← t.lookUp place with
    | some _ => .error .exists
    | none => .ok (t.put place .directory)

/-- Components lead to a directory. -/
def isDirectory (t : FileTree) (base : Location) (names : List String) : Bool :=
  match t.walk base names with
  | .ok _ => true
  | .error _ => false

/-- Makes a directory unless it is there, and before it the directories on the way to it, of which
`depth` is the number. -/
def makeDirectories (base : Location) : (depth : Nat) → (names : List String) → FileAction Unit
  | 0, _ => pure ()
  | depth + 1, names => do
    let t ← get
    match t.makeDirectory base names with
    | .ok made => set made
    | .error .notFound =>
      makeDirectories base depth names.dropLast
      let t ← get
      match t.makeDirectory base names with
      | .ok made => set made
      | .error reason => if t.isDirectory base names then pure () else throw reason
    | .error reason => if t.isDirectory base names then pure () else throw reason

/-- Makes the directory of a path and the directories on the way to it. -/
def makePath (path : String) : FileAction Unit := do
  if let some reason := refusal? path then throw reason
  let t ← get
  let names := components path
  makeDirectories (t.origin path) names.length names

end FileTree

end ChainMigration
