import Marginalia.Extraction
import Marginalia.Page.Heading
import Marginalia.Page.Image
import Marginalia.Page.Slug
import Marginalia.Project.Basic

/-!
# Pages

The page of a project: its write-up with the images as the site serves them, its
source files with their notes, and the sections that a reader can jump to. A
source file with a defect gives no page, but an error that tells the file and
the line. The index of the site has a card for each project, with a link to its
thumbnail.
-/

namespace Marginalia

/-- A source file as it is shown. -/
structure ShownFile where
  name : Text
  primary : Bool
  /-- Its displayed code and the notes on it. -/
  extraction : Extraction
  deriving DecidableEq, Repr

/-- A section of a page. -/
structure Section where
  id : Text
  name : LooseText
  /-- How far it is indented in the list of sections. -/
  indent : Nat
  deriving DecidableEq, Repr

/-- The page of a project. -/
structure Page where
  project : Project
  text : Text
  downloadUrl : Text
  sourceUrl : Text
  files : List ShownFile
  sections : List Section
  deriving DecidableEq, Repr

/-- The card of a project in the index. -/
structure Card where
  id : Text
  name : LooseText
  description : Option LooseText
  thumbnailUrl : Option LooseText
  deriving DecidableEq, Repr

namespace Page

/-- A source file of a project that cannot be shown. -/
structure Error where
  /-- The id of the project. -/
  project : Text
  /-- The name of the file. -/
  file : Text
  defect : Defect
  deriving DecidableEq, Repr

/-- How something wrong with a project is told: with its id and, where they are
    known, the file and the line in it, counting from one. -/
def describeProblem (project : Text) (message : String) (file : Option Text)
    (line : Option Int) : String :=
  let place := match file, line with
    | none, _ => ""
    | some name, none => ", file=" ++ String.ofList name
    | some name, some n => ", file=" ++ String.ofList name ++ ":" ++ toString n
  message ++ " (project=" ++ String.ofList project ++ place ++ ")"

/-- What a file that cannot be shown is told as. -/
def Error.describe (e : Error) : String :=
  describeProblem e.project e.defect.cause.message (some e.file) (some (e.defect.line + 1))

/-! ## The parts of a page -/

/-- The sections of a page: its start, the headings of the write-up, the source
    code with its files, and the simulation if there is one. -/
def sectionsOf (project : Project) (text : Text) (files : List ShownFile) : List Section :=
  ⟨"start".toList, project.name, 0⟩ ::
    (Heading.ofMarkdown text).map (fun h => ⟨Slug.ofHeading h.text, .ofText h.text, h.level - 2⟩) ++
    ⟨"source-code".toList, .ofText "Source code".toList, 0⟩ ::
    files.map (fun f => ⟨Slug.ofFileName f.name, .ofText f.name, 1⟩) ++
    (if (Project.given? project.simulation).isSome then
      [⟨"simulation".toList, .ofText "Simulation".toList, 0⟩] else [])

/-- The page made of what a project holds. -/
def assemble (settings : Settings) (project : Project) (text : Text) (files : List ShownFile) :
    Page where
  project := project
  text := Image.serve settings project.id text
  downloadUrl := "/api/download-project/".toList ++ project.id ++ ".zip".toList
  sourceUrl := settings.repositoryUrl ++ '/' :: project.id
  files := files
  sections := sectionsOf project text files

/-- How source files are named where something is wrong with them. -/
def sourceName (project file : Text) : Text := project ++ '/' :: file

/-- The notes that were dropped from the files of a page. -/
def orphans (page : Page) : List Orphan := page.files.flatMap (·.extraction.orphans)

end Page

namespace Card

/-- The link to the thumbnail of a project. A thumbnail that is no text has a link
    only if it is one itself. -/
def linkTo? (id : Text) (thumbnail : LooseText) : Option LooseText :=
  match thumbnail.text? with
  | some path => some (.ofText (Url.ofFile id path))
  | none => if Url.isAbsolute thumbnail.beginning then some thumbnail else none

/-- The card of a project, if its thumbnail has a link. -/
def ofProject? (project : Project) : Option Card :=
  let card (thumbnailUrl : Option LooseText) : Card :=
    { id := project.id, name := project.name, description := project.description, thumbnailUrl }
  match Project.given? project.thumbnail with
  | none => some (card none)
  | some thumbnail => (linkTo? project.id thumbnail).map fun link => card (some link)

end Card

end Marginalia
