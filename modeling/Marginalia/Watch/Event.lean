import Marginalia.Disk.Basic
import Marginalia.Text.Lower

/-!
# Changes of files

Which changes below the content directory concern which project. Only files that
are created or modified count, and only those whose name is that of a source, a
write-up or metadata, in any case, and not that of a temporary or hidden file. If
a change leads elsewhere, a name like that at either end will do. A name is found in a
path the way it is on Windows. A file belongs to the project in whose directory it is,
at any depth.
-/

namespace Marginalia.Watch

/-- What happened to a file. -/
inductive Change
  | created
  | modified
  | deleted
  | closed
  | opened
  | moved
  deriving DecidableEq, Repr

/-- Something that happened to a file or a directory. -/
structure Event where
  change : Change
  /-- Where it happened. -/
  path : Text
  /-- Where it led to, if it led elsewhere. -/
  destination : Option Text
  /-- Whether it happened to a directory. -/
  directory : Bool
  deriving DecidableEq, Repr

/-! ## Names -/

/-- The pieces of a path, in which backslashes separate names too. -/
def piecesOf (path : Text) : List Text := (Text.splitAt '/' path).flatMap (Text.splitAt '\\')

/-- Without the mark of a path that may be long. -/
def withoutMark : List Text → List Text
  | [] :: [] :: ['?'] :: ['U', 'N', 'C'] :: name :: rest => [] :: [] :: name :: rest
  | [] :: [] :: ['?'] :: name :: rest => name :: rest
  | pieces => pieces

/-- Without the root that a path starts with: a host and what it shares, or the letter
    of a drive. -/
def withoutRoot : List Text → List Text
  | [] :: [] :: host :: share :: rest =>
    if host = [] ∨ (share = [] ∧ rest ≠ []) then host :: share :: rest else rest
  | (letter :: ':' :: name) :: rest =>
    if letter.isAlpha then name :: rest else (letter :: ':' :: name) :: rest
  | pieces => pieces

/-- The last name of a path, if it is more than a root. Names that say nothing do not
    count. -/
def lastName? (path : Text) : Option Text :=
  ((withoutRoot (withoutMark (piecesOf path))).filter (!Path.isIdle ·)).getLast?

/-- The ends of the names of watched files. -/
def watchedEnds : List Text :=
  [".ino", ".h", ".hpp", ".c", ".cpp", ".md"].map (·.toList)

/-- The name of the metadata of a project. -/
def watchedName : Text := "project.json".toList

/-- The ends of the names of temporary files. -/
def ignoredEnds : List Text := [".tmp", ".swp", "~"].map (·.toList)

/-- Whether a file of that name, in small letters, is watched. -/
def isWatchedName (name : Text) : Bool :=
  (name == watchedName || watchedEnds.any (·.isSuffixOf name)) &&
    !(ignoredEnds.any (·.isSuffixOf name) || ['.'].isPrefixOf name)

/-- Whether the file that a path leads to is watched, by its name. -/
def isWatched (path : Text) : Bool := (lastName? path).any (isWatchedName <| Text.lower ·)

/-! ## Projects -/

/-- The project that the location of a changed file belongs to: the name in the
    content directory it lies below. -/
def projectAt? (content changed : Location) : Option Text :=
  match content.isPrefixOf? changed with
  | some (id :: _ :: _) => some id
  | _ => none

/-- The project that a changed file belongs to. A path with a null character leads
    to no location. -/
def projectOf? (disk : Disk) (content changed : Path) : Option Text :=
  if content.holdsNull || changed.holdsNull then none
  else projectAt? (disk.resolve content) (disk.resolve changed)

/-- Whether an event happened to a watched file, by its name here or where the
    event led to. -/
def Event.isWatched (event : Event) : Bool :=
  Watch.isWatched event.path || event.destination.any Watch.isWatched

/-- The project that an event concerns: the one that the file was in when it
    happened. -/
def Event.project? (disk : Disk) (content : Path) (event : Event) : Option Text :=
  if event.directory || !event.isWatched then none
  else
    match event.change with
    | .created | .modified => projectOf? disk content (.ofText event.path)
    | _ => none

end Marginalia.Watch
