import Marginalia.Json.Basic
import Marginalia.Page.Basic

/-!
# Records of pages

What is written to disk of notes, pages and cards: the names of the fields and
their order.
-/

namespace Marginalia

/-- The record of a note. -/
def Note.record (note : Note) : Json := .ofFields [
  ("start_line", .ofNat note.first),
  ("end_line", .ofNat note.last),
  ("text", .ofText note.text),
  ("anchor_column", .ofInt? note.column),
  ("marker_id", .ofText? note.id),
  ("depth", .ofInt note.depth)]

/-- The record of a dropped note of the source of that name. -/
def Orphan.record (source : Text) (orphan : Orphan) : Json := .ofFields [
  ("source_name", .ofText source),
  ("line", .ofInt (orphan.line + 1)),
  ("message", .ofText Orphan.message.toList)]

/-- The record of a shown file. -/
def ShownFile.record (file : ShownFile) : Json := .ofFields [
  ("name", .ofText file.name),
  ("primary", .bool file.primary),
  ("code", .ofText file.extraction.code),
  ("annotations", .array (file.extraction.notes.map Note.record))]

/-- The record of a section. -/
def Section.record (s : Section) : Json := .ofFields [
  ("id", .ofText s.id),
  ("name", .text s.name),
  ("indent", .ofNat s.indent)]

/-- The record of a page. -/
def Page.record (page : Page) : Json := .ofFields [
  ("id", .ofText page.project.id),
  ("name", .text page.project.name),
  ("last_modified", .ofInt page.project.modified),
  ("author", .ofLoose? page.project.author),
  ("description", .ofLoose? page.project.description),
  ("simulation", .ofLoose? page.project.simulation),
  ("text", .ofText page.text),
  ("download_url", .ofText page.downloadUrl),
  ("source_url", .ofText page.sourceUrl),
  ("code", .array (page.files.map ShownFile.record)),
  ("sections", .array (page.sections.map Section.record))]

/-- The record of a card. -/
def Card.record (card : Card) : Json := .ofFields [
  ("id", .ofText card.id),
  ("name", .text card.name),
  ("description", .ofLoose? card.description),
  ("thumbnail_url", .ofLoose? card.thumbnailUrl)]

/-- The record of the index with its cards. -/
def Card.indexRecord (cards : List Card) : Json := .ofFields [
  ("projects", .array (cards.map Card.record))]

end Marginalia
