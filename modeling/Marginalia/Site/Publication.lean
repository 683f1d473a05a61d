import Marginalia.Extraction.Batch
import Marginalia.Page.Record
import Marginalia.Project.Content
import Marginalia.Site.Settings

/-!
# Publication

Writing the pages of a site: a page for each project below `projects` in the
output directory, and an index there with a card for each project that has a
page.

* `buildPage` makes the page of a project, without writing it;
* `rebuild` writes the page of one project and the index;
* `build` does so for all projects. A project that has something wrong with it
  loses its page and is reported, and the others are built all the same. Any
  other failure ends the whole build before anything is written;
* `writeIndex` leaves out projects without a page and those that have something
  wrong with them.

A publication acts on a disk. A failure leaves the disk as it was at the time. A
record with half a surrogate pair in it cannot be written: its file stays empty.

What a publication goes through by recursion may be nested too deeply for it. How deep
is too deep may differ from one place to another (`Limits`).
-/

namespace Marginalia

/-- A site to publish. -/
structure Site where
  settings : Settings
  /-- The guess at the encoding of files that are not in UTF-8. -/
  detect : Encoding.Detector

namespace Site

/-- How deep a publication can go, where there is a limit to it. -/
structure Limits where
  /-- For what is read of a project for its page. -/
  page : Content.Limits := {}
  /-- For what is read of a project for the index. -/
  index : Content.Limits := {}
  /-- The most searches for the place of a note that start one another. -/
  searches : Option Nat := none
  /-- The most directories that are made on the way to a file. -/
  parents : Option Nat := none
  deriving DecidableEq, Repr

/-- The limits of the program, in which recursion can go a thousand calls deep. When
    it reads a project for the index it is one call further down. -/
def Limits.standard : Limits where
  page := { values := some 989, directories := some 985 }
  index := { values := some 988, directories := some 984 }
  searches := some Extraction.searchLimit
  parents := some 980

/-- Why a page or a site cannot be published. -/
inductive Failure
  | content (failure : Content.Failure)
  | page (error : Page.Error)
  /-- No work may be done at a time. -/
  | noCapacity (capacity : Extraction.NoCapacity)
  /-- The number of projects to work on at a time is negative. -/
  | negativeCapacity
  /-- No project may be worked on at a time, so the build waits for ever. -/
  | stalled
  | extraction (failure : Extraction.Failure)
  | disk (error : Disk.Error)
  /-- Something to be written holds half a surrogate pair. -/
  | unencodable
  deriving DecidableEq, Repr

/-- What is reported of a failure that concerns its project alone. Other
    failures end a build. -/
def Failure.report? : Failure → Option String
  | content (.invalid e) => some e.describe
  | page e => some e.describe
  | _ => none

/-- A change of the disk that may fail on the way. -/
abbrev Publishing := EStateM Failure Disk

/-- Reads something off the disk. -/
def asking {α : Type} (question : Disk → Except Failure α) : Publishing α := fun disk =>
  match question disk with
  | .ok answer => .ok answer disk
  | .error failure => .error failure disk

/-- Changes the disk. -/
def changing (change : EStateM Disk.Error Disk Unit) : Publishing Unit := fun disk =>
  match change disk with
  | .ok _ disk => .ok () disk
  | .error e disk => .error (.disk e) disk

/-- The projects of the site. -/
def content (site : Site) : Content := ⟨site.settings.contentDir, site.detect⟩

/-! ## The output -/

/-- The directory of the pages. -/
def pagesDir (site : Site) : Path := site.settings.outputDir.child "projects".toList

/-- The file of the page of a project. -/
def pagePath (site : Site) (id : Text) : Path := site.pagesDir.child (id ++ ".json".toList)

/-- The file of the index. -/
def indexPath (site : Site) : Path := site.settings.outputDir.child "index.json".toList

/-- Writes a record to a file, making its directory if need be. -/
def writeRecord (path : Path) (record : Json) (parents : Option Nat := none) :
    Publishing Unit := do
  changing (Disk.makeDirectories path.parent parents)
  match record.write? with
  | some text => changing (Disk.atOnce (·.write path (Encoding.encodeUtf8 text)))
  | none =>
    -- The file is opened, which empties it, before its text turns out to be none.
    changing (Disk.atOnce (·.write path .empty))
    throw .unencodable

/-- Writes a page to its file. -/
def writePage (site : Site) (limits : Limits) (page : Page) : Publishing Unit :=
  writeRecord (site.pagePath page.project.id) page.record limits.parents

/-- The cards of those of some projects that have a page and metadata fit for
    one. -/
def cardsOf (site : Site) (limits : Limits) (disk : Disk) : List Text → Except Failure (List Card)
  | [] => return []
  | id :: rest => do
    if ← (disk.isFile (site.pagePath id)).mapError .disk then
      match site.content.project disk id limits.index with
      | .ok project =>
        match Card.ofProject? project with
        | some card => return card :: (← site.cardsOf limits disk rest)
        | none => throw .unencodable
      | .error (.invalid _) => site.cardsOf limits disk rest
      | .error failure => throw (.content failure)
    else site.cardsOf limits disk rest

/-- The names of the projects of the site. -/
def projects (site : Site) (disk : Disk) : Except Failure (List Text) :=
  (site.content.projects disk).mapError .disk

/-- The cards of the index. -/
def cards (site : Site) (limits : Limits) (disk : Disk) : Except Failure (List Card) := do
  site.cardsOf limits disk (← site.projects disk)

/-- Writes the index. -/
def writeIndex (site : Site) (limits : Limits) : Publishing Unit := do
  let cards ← asking (site.cards limits)
  writeRecord site.indexPath (Card.indexRecord cards) limits.parents

/-! ## Pages -/

/-- A source file as it is shown, given what came of its extraction. -/
def shownFile (id : Text) (file : SourceFile) : Except Extraction.Failure Extraction →
    Except Failure ShownFile
  | .ok extraction => .ok ⟨file.name, file.primary, extraction⟩
  | .error (.defect defect) => .error (.page ⟨id, file.name, defect⟩)
  | .error failure => .error (.extraction failure)

/-- The source files of a project as they are shown. -/
def shownFiles (site : Site) (limits : Limits) (id : Text) (files : List SourceFile) :
    Except Failure (List ShownFile) := do
  let outcomes ← (Extraction.extractAll site.settings.concurrency (files.map (·.code))
    limits.searches).mapError .noCapacity
  (files.zip outcomes).mapM fun (file, outcome) => shownFile id file outcome

/-- The page of a project. -/
def buildPage (site : Site) (limits : Limits) (disk : Disk) (id : Text) : Except Failure Page := do
  let project ← (site.content.project disk id limits.page).mapError .content
  let text ← (site.content.writeUp disk id).mapError .content
  let files ← (site.content.sources disk id).mapError .content
  return .assemble site.settings project text (← site.shownFiles limits id files)

/-- Writes the page of a project and the index. -/
def rebuild (site : Site) (limits : Limits) (id : Text) : Publishing Page := do
  let page ← asking (site.buildPage limits · id)
  site.writePage limits page
  site.writeIndex limits
  return page

/-! ## The whole site -/

/-- What a build did. -/
structure Report where
  /-- The number of projects. -/
  scanned : Nat
  /-- The number of pages written. -/
  built : Nat
  /-- The number of notes dropped from them. -/
  orphans : Nat
  /-- The projects without a page, with what is wrong with them. -/
  problems : List (Text × String)
  deriving DecidableEq, Repr

/-- What became of a project: its page, or what is wrong with it. -/
abbrev Outcome := Page ⊕ String

/-- What became of a project, unless the failure is not its own. -/
def outcome (site : Site) (limits : Limits) (disk : Disk) (id : Text) : Except Failure Outcome :=
  match site.buildPage limits disk id with
  | .ok page => .ok (.inl page)
  | .error failure =>
    match failure.report? with
    | some report => .ok (.inr report)
    | none => .error failure

/-- What became of each project. -/
def outcomes (site : Site) (limits : Limits) (disk : Disk) :
    Except Failure (List (Text × Outcome)) := do
  let ids ← site.projects disk
  -- The limit is looked at before any project is.
  if site.settings.concurrency < 0 then throw .negativeCapacity
  if site.settings.concurrency = 0 ∧ ids ≠ [] then throw .stalled
  ids.mapM fun id => return (id, ← site.outcome limits disk id)

/-- Writes the page of a project, or takes it away. -/
def publish (site : Site) (limits : Limits) : Text × Outcome → Publishing Unit
  | (_, .inl page) => site.writePage limits page
  | (id, .inr _) => changing (Disk.atOnce (·.delete (site.pagePath id)))

/-- The report on projects of which this became. -/
def Report.of (outcomes : List (Text × Outcome)) : Report :=
  let pages := outcomes.filterMap fun (_, o) => o.getLeft?
  { scanned := outcomes.length
    built := pages.length
    orphans := (pages.flatMap Page.orphans).length
    problems := outcomes.filterMap fun (id, o) => o.getRight?.map (id, ·) }

/-- Writes the pages of all projects and the index. -/
def build (site : Site) (limits : Limits) : Publishing Report := do
  let outcomes ← asking (site.outcomes limits)
  outcomes.forM (site.publish limits)
  site.writeIndex limits
  return .of outcomes

/-- The record of a report on a build that took so many milliseconds. -/
def Report.record (report : Report) (duration : Nat) : Json := .ofFields [
  ("scanned", .ofNat report.scanned),
  ("built", .ofNat report.built),
  ("errors", .ofNat report.problems.length),
  ("warnings", .ofNat report.orphans),
  ("duration_ms", .ofNat duration),
  ("error_details", .array (report.problems.map fun (id, message) => .ofFields [
    ("project_id", .ofText id), ("error", .ofText message.toList)]))]

end Site

end Marginalia
