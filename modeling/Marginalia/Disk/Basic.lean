import Marginalia.Disk.Path
import Marginalia.Text.Quoted

/-!
# The disk

The files and directories that a site is read from and written to, as a value: a
directory or a file for every location that has one. A location is the list of
names from the root; a path leads from the working directory or the root to a
location, through directories only, a part of two points leading up. Names and
paths must not be too long, nor hold a null character.

What an operation cannot do is told by a cause and the path it was asked for.
-/

namespace Marginalia

/-- The names from the root of the disk to a place on it. -/
abbrev Location := List Text

namespace Disk

/-- What is at a location. -/
inductive Entry
  | directory
  /-- A file with its bytes and the time of its last change in microseconds. -/
  | file (content : ByteArray) (modified : Int)

/-- Why an operation cannot be done. -/
inductive Cause
  | notFound
  | exists
  | notDirectory
  | isDirectory
  | nameTooLong
  /-- The path holds a null character. The disk is not even asked. -/
  | nullCharacter
  /-- More directories are missing on the way than are made in one go. -/
  | tooDeep
  deriving DecidableEq, Repr

/-- An operation on a path that cannot be done. -/
structure Error where
  cause : Cause
  path : Path
  deriving DecidableEq, Repr

/-- The words of a cause, after its number if the disk has told it. -/
def Cause.message : Cause → String
  | notFound => "[Errno 2] No such file or directory"
  | .exists => "[Errno 17] File exists"
  | notDirectory => "[Errno 20] Not a directory"
  | isDirectory => "[Errno 21] Is a directory"
  | nameTooLong => "[Errno 36] File name too long"
  | nullCharacter => "embedded null byte"
  | tooDeep => "Too many directories are missing"

/-- What an operation that cannot be done is told as. A path that the disk is not
    asked for is not told. -/
def Error.describe (e : Error) : String :=
  if e.cause = .nullCharacter then e.cause.message
  else e.cause.message ++ ": " ++ e.path.text.quoted

/-- Whether an entry is a file. -/
def Entry.isFile : Entry → Bool
  | file _ _ => true
  | directory => false

/-- Whether an entry is a directory. -/
def Entry.isDirectory (entry : Entry) : Bool := !entry.isFile

end Disk

/-- A disk. -/
structure Disk where
  /-- Where relative paths start. -/
  working : Location
  /-- The time that files written now are given, in microseconds. -/
  now : Int
  /-- What there is besides the root, each location once. -/
  entries : List (Location × Disk.Entry)

namespace Disk

/-! ## Locations -/

/-- What is at a location. The root is always a directory. -/
def get? (disk : Disk) (location : Location) : Option Entry :=
  if location.isEmpty then some .directory else disk.entries.lookup location

/-- The disk with an entry at a location, in place of what was there. -/
def put (disk : Disk) (location : Location) (entry : Entry) : Disk :=
  { disk with entries := (location, entry) :: disk.entries.filter (·.1 != location) }

/-- The disk without what is at a location and below it. -/
def remove (disk : Disk) (location : Location) : Disk :=
  { disk with entries := disk.entries.filter (!location.isPrefixOf ·.1) }

/-- The files below a location, each with the names that lead to it. -/
def filesBelow (disk : Disk) (location : Location) : List (List Text × ByteArray × Int) :=
  disk.entries.filterMap fun (l, entry) =>
    match location.isPrefixOf? l, entry with
    | some (name :: names), .file content modified => some (name :: names, content, modified)
    | _, _ => none

/-- The directories below a location, each by the names that lead to it. -/
def directoriesBelow (disk : Disk) (location : Location) : List (List Text) :=
  disk.entries.filterMap fun (l, entry) =>
    match location.isPrefixOf? l, entry with
    | some (name :: names), .directory => some (name :: names)
    | _, _ => none

/-- The entries directly in a location, with their names. -/
def childrenOf (disk : Disk) (location : Location) : List (Text × Entry) :=
  disk.entries.filterMap fun (l, entry) =>
    match location.isPrefixOf? l with
    | some [name] => some (name, entry)
    | _ => none

/-- What a list of entries holds at a location, once another one is left out. -/
theorem lookup_filter_ne {entries : List (Location × Entry)} {location other : Location}
    (h : other ≠ location) :
    (entries.filter (·.1 != location)).lookup other = entries.lookup other := by
  induction entries with
  | nil => rfl
  | cons first rest ih =>
    obtain ⟨l, entry⟩ := first
    by_cases hl : l = location
    · -- An entry left out is not at the other location.
      subst hl
      simp [List.lookup_cons, beq_false_of_ne h, ih]
    · simp [List.lookup_cons, hl, ih]

/-- A new entry is at its location. -/
theorem get?_put_self (disk : Disk) {location : Location} (entry : Entry) (h : location ≠ []) :
    (disk.put location entry).get? location = some entry := by
  simp [get?, put, h]

/-- A new entry changes nothing at other locations. -/
theorem get?_put_of_ne (disk : Disk) {location other : Location} (entry : Entry)
    (h : other ≠ location) : (disk.put location entry).get? other = disk.get? other := by
  simp [get?, put, List.lookup_cons, beq_false_of_ne h, lookup_filter_ne h]

/-! ## Paths -/

/-- The part of a path that leads up. -/
def up : Text := ['.', '.']

/-- The location one name further on. -/
def stepTo (location : Location) (name : Text) : Location :=
  if name = up then location.dropLast else location ++ [name]

/-- Where a path starts. -/
def startOf (disk : Disk) (path : Path) : Location :=
  if path.isAbsolute then [] else disk.working

/-- The most bytes of a name. -/
def nameLimit : Nat := 255

/-- The most bytes of a path. -/
def pathLimit : Nat := 4095

/-- The location that names lead to. All but the last step must be from one
    directory to another entry. Only a name that is looked up is found too long. -/
def walk (disk : Disk) (location : Location) : List Text → Except Cause Location
  | [] => .ok location
  | name :: rest =>
    match disk.get? location with
    | none => .error .notFound
    | some (.file _ _) => .error .notDirectory
    | some .directory =>
      if nameLimit < name.byteSize then .error .nameTooLong
      else disk.walk (stepTo location name) rest

/-- The location of a path, which may be free if only its last step fails. -/
def locate (disk : Disk) (path : Path) : Except Cause Location :=
  if path.holdsNull then .error .nullCharacter
  else if pathLimit < path.text.byteSize then .error .nameTooLong
  else disk.walk (disk.startOf path) path.parts

/-- The location of a path by its names alone, whatever is on the disk. -/
def resolve (disk : Disk) (path : Path) : Location :=
  path.parts.foldl stepTo (disk.startOf path)

/-- What a path leads to. -/
def entryAt (disk : Disk) (path : Path) : Except Cause Entry := do
  match disk.get? (← disk.locate path) with
  | none => throw .notFound
  | some entry => return entry

/-- Whether a path leads to such an entry. A path that leads nowhere does not, but
    one that is too long gives no answer. -/
def leadsTo (disk : Disk) (path : Path) (isSuch : Entry → Bool) : Except Error Bool :=
  match disk.entryAt path with
  | .ok entry => .ok (isSuch entry)
  | .error .nameTooLong => .error ⟨.nameTooLong, path⟩
  | .error _ => .ok false

/-- Whether a path leads to a file. -/
def isFile (disk : Disk) (path : Path) : Except Error Bool := disk.leadsTo path Entry.isFile

/-- Whether a path leads to a directory. -/
def isDirectory (disk : Disk) (path : Path) : Except Error Bool :=
  disk.leadsTo path Entry.isDirectory

/-- The entries in the directory that a path leads to, with their names; none if
    it leads to no directory. -/
def children (disk : Disk) (path : Path) : List (Text × Entry) :=
  match disk.locate path with
  | .ok location => disk.childrenOf location
  | .error _ => []

/-- The times of the last changes to the files below a path. -/
def changesBelow (disk : Disk) (path : Path) : List Int :=
  match disk.locate path with
  | .ok location => (disk.filesBelow location).map (·.2.2)
  | .error _ => []

/-- How deep the directories below a path are nested. -/
def depthBelow (disk : Disk) (path : Path) : Nat :=
  match disk.locate path with
  | .ok location => ((disk.directoriesBelow location).map List.length).max?.getD 0
  | .error _ => 0

/-! ## Reading and writing -/

/-- The bytes of the file that a path leads to. -/
def read (disk : Disk) (path : Path) : Except Error ByteArray :=
  match disk.entryAt path with
  | .ok (.file content _) => .ok content
  | .ok .directory => .error ⟨.isDirectory, path⟩
  | .error cause => .error ⟨cause, path⟩

/-- The disk with these bytes in the file that a path leads to, whose directory
    must be there. -/
def write (disk : Disk) (path : Path) (content : ByteArray) : Except Error Disk :=
  match disk.locate path with
  | .error cause => .error ⟨cause, path⟩
  | .ok location =>
    match disk.get? location with
    | some .directory => .error ⟨.isDirectory, path⟩
    | _ => .ok (disk.put location (.file content disk.now))

/-- The disk without the file that a path leads to, if it leads to anything. -/
def delete (disk : Disk) (path : Path) : Except Error Disk :=
  match disk.locate path with
  | .error .notFound => .ok disk
  | .error cause => .error ⟨cause, path⟩
  | .ok location =>
    match disk.get? location with
    | none => .ok disk
    | some .directory => .error ⟨.isDirectory, path⟩
    | some (.file _ _) => .ok (disk.remove location)

/-- The disk with a new directory. -/
def makeDirectory (disk : Disk) (path : Path) : Except Error Disk :=
  match disk.locate path with
  | .error cause => .error ⟨cause, path⟩
  | .ok location =>
    match disk.get? location with
    | some _ => .error ⟨.exists, path⟩
    | none => .ok (disk.put location .directory)

/-- The disk with the directory of a path, which may be there already, in a
    directory that is there. Whatever else stands at the path is in the way. -/
def ensureDirectory (disk : Disk) (path : Path) : Except Error Disk :=
  match disk.makeDirectory path with
  | .ok disk => .ok disk
  | .error e => do if ← disk.isDirectory path then return disk else throw e

/-- A change of the disk that is made as a whole or not at all. -/
def atOnce (change : Disk → Except Error Disk) : EStateM Error Disk Unit := fun disk =>
  match change disk with
  | .ok disk => .ok () disk
  | .error e => .error e disk

/-- Makes the directory of a path, which may be there already, and the missing
    directories on the way to it, of which there may be a limit to the number. Those
    that are made stay even if the one after them cannot be. -/
def makeDirectories (path : Path) (limit : Option Nat := none) : EStateM Error Disk Unit :=
  fun disk =>
  match disk.makeDirectory path with
  | .ok disk => .ok () disk
  | .error e =>
    if e.cause = .notFound ∧ path.parts ≠ [] then
      if limit = some 0 then .error ⟨.tooDeep, path⟩ disk
      else
        match makeDirectories path.parent (limit.map (· - 1)) disk with
        | .ok () disk => atOnce (·.ensureDirectory path) disk
        | .error e disk => .error e disk
    else atOnce (·.ensureDirectory path) disk
termination_by path.parts.length
decreasing_by
  rename_i h _
  have : 0 < path.parts.length := List.length_pos_iff.2 h.2
  simp only [Path.parent, List.length_dropLast]
  omega

end Disk

end Marginalia
