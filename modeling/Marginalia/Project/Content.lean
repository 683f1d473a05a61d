import Marginalia.Disk.Basic
import Marginalia.Encoding.Basic
import Marginalia.Json.Reader
import Marginalia.Project.Basic
import Marginalia.Text.Lower
import Marginalia.Text.Order

/-!
# Content

The projects of a site: the directories in its content directory that hold a
`project.json`. Besides this a project may have a `README.md` and source files,
sketches and C, directly in its directory. The name of the directory is the id of
the project.

* An id that is no single name, or that leads nowhere, is told as such;
* metadata must be a JSON object with a name; what else it gives must be text;
* sketches come before other sources, each in the order of their names, and the
  first of all is the primary file.

There may be limits to how deep what is read may be nested (`Limits`). Metadata beyond
them is neither read nor told to be wrong.
-/

namespace Marginalia

/-- Where projects are read from. -/
structure Content where
  /-- The directory with a directory for each project. -/
  directory : Path
  /-- The guess at the encoding of files that are not in UTF-8. -/
  detect : Encoding.Detector

namespace Content

/-- How deep what is read of a project may be nested, where there is a limit to it. -/
structure Limits where
  /-- The most arrays and objects in the metadata that are nested in one another. -/
  values : Option Nat := none
  /-- The most directories below that of a project that are nested in one another. -/
  directories : Option Nat := none
  deriving DecidableEq, Repr

/-- What is wrong with a project. -/
inductive Problem
  | invalidId (id : Text)
  | unknownProject (id : Text)
  /-- The metadata, with this text, is no JSON. -/
  | unreadable (text : Text) (refusal : Json.Refusal)
  | noObject
  | noName
  | notText (field : Text)
  deriving DecidableEq, Repr

/-- What a problem is told as. -/
def Problem.message : Problem → String
  | invalidId id => "Invalid project id " ++ id.quoted
  | unknownProject id => "Unknown project " ++ id.quoted
  | unreadable text refusal => "Failed to read project metadata: " ++ refusal.describe text
  | noObject => "Project metadata must be a JSON object"
  | noName => "Project metadata is missing 'name'"
  | notText field => "Project field " ++ field.quoted ++ " must be a string"

/-- A problem and the path it is found at. -/
structure Error where
  problem : Problem
  path : Path
  deriving DecidableEq, Repr

/-- What a problem at a path is told as. -/
def Error.describe (e : Error) : String :=
  e.problem.message ++ " (path=" ++ String.ofList e.path.text ++ ")"

/-- Why something of a project cannot be read. -/
inductive Failure
  /-- The content is wrong. -/
  | invalid (error : Error)
  /-- Bytes are no text in the encoding they are taken for. -/
  | undecodable
  /-- The metadata, with this text, is beyond a limit of what is read of JSON. -/
  | beyondLimit (text : Text) (refusal : Json.Refusal)
  /-- The directories below that of the project are nested too deeply. -/
  | tooNested
  /-- The disk does not answer. -/
  | disk (error : Disk.Error)
  deriving DecidableEq, Repr

/-! ## Projects and their directories -/

/-- The name of the file with the metadata of a project. -/
def metadataFile : Text := "project.json".toList

/-- The name of the file with the write-up of a project. -/
def writeUpFile : Text := "README.md".toList

/-- The suffixes of sketches. -/
def sketchSuffixes : List Text := [".ino".toList]

/-- The suffixes of source files. -/
def sourceSuffixes : List Text :=
  sketchSuffixes ++ [".h".toList, ".hpp".toList, ".c".toList, ".cpp".toList]

/-- An id that could lead elsewhere than to a directory of its own. -/
def isInvalidId (id : Text) : Bool :=
  id.isEmpty || id.contains '/' || id.contains '\\' || id == ['.'] || id == Disk.up

/-- The directory of a project. -/
def directoryOf (content : Content) (disk : Disk) (id : Text) : Except Failure Path := do
  let directory := content.directory.child id
  if isInvalidId id then throw (.invalid ⟨.invalidId id, directory⟩)
  if ← (disk.isFile (directory.child metadataFile)).mapError .disk then return directory
  else throw (.invalid ⟨.unknownProject id, directory⟩)

/-- Whether a name is that of the directory of a project. -/
def isProject (content : Content) (disk : Disk) (name : Text) : Except Disk.Error Bool := do
  let directory := content.directory.child name
  if ← disk.isDirectory directory then disk.isFile (directory.child metadataFile)
  else return false

/-- Those of some names that are of directories of projects. -/
def projectsAmong (content : Content) (disk : Disk) : List Text → Except Disk.Error (List Text)
  | [] => .ok []
  | name :: rest => do
    let found ← content.isProject disk name
    let more ← content.projectsAmong disk rest
    return if found then name :: more else more

/-- The names of the directories of projects, in ascending order. -/
def projects (content : Content) (disk : Disk) : Except Disk.Error (List Text) := do
  if ← disk.isDirectory content.directory then
    return Text.sort (← content.projectsAmong disk ((disk.children content.directory).map (·.1)))
  else return []

/-! ## Metadata -/

/-- The text with a newline for every line end. -/
def unifyNewlines : Text → Text
  | [] => []
  | '\r' :: '\n' :: rest => '\n' :: unifyNewlines rest
  | '\r' :: rest => '\n' :: unifyNewlines rest
  | c :: rest => c :: unifyNewlines rest

/-- The name that metadata gives, without blanks around it. -/
def nameIn? (fields : List (LooseText × Json)) : Option LooseText :=
  match Json.field? fields "name" with
  | some (.text name) => if name.isBlankText then none else some name.strip
  | _ => none

/-- A text that metadata may give; an empty one counts as none. -/
def textIn (fields : List (LooseText × Json)) (name : String) :
    Except Problem (Option LooseText) :=
  match Json.field? fields name with
  | none | some .null => .ok none
  | some (.text value) => .ok (Project.given? (some value))
  | some _ => .error (.notText name.toList)

/-- The project that metadata tells of. -/
def projectIn (id : Text) (modified : Int) : Json → Except Problem Project
  | .object fields => do
    match nameIn? fields with
    | none => throw .noName
    | some name =>
      let author ← textIn fields "author"
      let description ← textIn fields "description"
      let simulation ← textIn fields "simulation"
      let thumbnail ← textIn fields "thumbnail"
      return { id, name, modified, author, description, simulation, thumbnail }
  | _ => .error .noObject

/-- The metadata in the bytes of the file that the path leads to. -/
def metadataOf (path : Path) (bytes : ByteArray) (limit : Option Nat := none) :
    Except Failure Json :=
  match Encoding.decodeUtf8? bytes with
  | none => .error .undecodable
  | some text =>
    let text := unifyNewlines text
    match Json.read text limit with
    | .ok json => .ok json
    | .error refusal =>
      if refusal.isLimit then .error (.beyondLimit text refusal)
      else .error (.invalid ⟨.unreadable text refusal, path⟩)

/-- When a file below a directory was last changed, in whole milliseconds. -/
def lastChange (disk : Disk) (directory : Path) : Int :=
  (disk.changesBelow directory).max?.getD 0 / 1000

/-- Goes through the directories below one. -/
def goThrough (disk : Disk) (directory : Path) (limit : Option Nat) : Except Failure Unit :=
  if limit.any (· < disk.depthBelow directory) then .error .tooNested else .ok ()

/-- The project of an id. -/
def project (content : Content) (disk : Disk) (id : Text) (limits : Limits := {}) :
    Except Failure Project := do
  let directory ← content.directoryOf disk id
  let path := directory.child metadataFile
  let bytes ← (disk.read path).mapError .disk
  let json ← metadataOf path bytes limits.values
  let project ← (projectIn id (lastChange disk directory) json).mapError fun problem =>
    .invalid ⟨problem, path⟩
  -- The files that tell when the project was changed are looked for last.
  goThrough disk directory limits.directories
  return project

/-! ## Write-ups and sources -/

/-- The text in the bytes of a source file. -/
def decode (content : Content) (bytes : ByteArray) : Except Failure Text :=
  match Encoding.decodeSource? content.detect bytes with
  | some text => .ok text
  | none => .error .undecodable

/-- The write-up of a project, empty if it has none. -/
def writeUp (content : Content) (disk : Disk) (id : Text) : Except Failure Text := do
  let path := (← content.directoryOf disk id).child writeUpFile
  if ← (disk.isFile path).mapError .disk then content.decode (← (disk.read path).mapError .disk)
  else return []

/-- The suffix of a file name, in small letters. -/
def suffixOf (name : Text) : Text := Text.lower (Path.suffix name)

/-- Whether a file name is that of a sketch. -/
def isSketch (name : Text) : Bool := sketchSuffixes.contains (suffixOf name)

/-- Whether a file name is that of a source file. -/
def isSource (name : Text) : Bool := sourceSuffixes.contains (suffixOf name)

/-- Whether a source comes before another of that name, or has the same name:
    sketches come first. -/
def comesFirst (a b : Text) : Bool :=
  if isSketch a == isSketch b then Text.le a b else isSketch a

/-- The names of the source files in a directory, in order. -/
def sourceNames (disk : Disk) (directory : Path) : List Text :=
  (((disk.children directory).filter fun (name, entry) => entry.isFile && isSource name).map
    (·.1)).mergeSort comesFirst

/-- The source files of a project, the primary one first. -/
def sources (content : Content) (disk : Disk) (id : Text) : Except Failure (List SourceFile) := do
  let directory ← content.directoryOf disk id
  let names := sourceNames disk directory
  let codes ← names.mapM fun name => do
    content.decode (← (disk.read (directory.child name)).mapError .disk)
  return (names.zip codes).mapIdx fun position (name, code) => ⟨name, code, position == 0⟩

end Content

end Marginalia
