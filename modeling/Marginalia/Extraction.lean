import Marginalia.Note.Anchor
import Marginalia.Note.Pairing

/-!
# Extraction

From a source text with notes in its comments to the code a reader sees and the
notes on it: the lines are read one by one, each giving the state for the next
(`readLines`), then the displayed code is put together and the notes are
anchored in it (`extract`).

A text with a defect has no extraction; the first defect is what is told. Of the
other failures, one happens only if both block delimiters of the dialect are empty,
which makes the search for a comment endless, and another only if there is a limit
to how deep searches for the lines of notes are nested, and the notes of the text
are nested deeper.
-/

namespace Marginalia

/-- The displayed code of a source text, and the notes on it. -/
structure Extraction where
  code : Text
  /-- The notes in the order in which they were closed. -/
  notes : List Note
  /-- The notes that were dropped. -/
  orphans : List Orphan
  deriving DecidableEq, Repr

namespace Extraction

/-- Why a text has no extraction. -/
inductive Failure
  /-- The text has a defect. -/
  | defect (defect : Defect)
  /-- The search for a comment on a line does not end. -/
  | endless (line : Nat)
  /-- The notes cannot be anchored in the displayed code. -/
  | fault (fault : Note.Fault)
  deriving DecidableEq, Repr

/-- What a line is, and whether the next line starts in a block comment. -/
def readLine (d : Dialect) (inBlock noteOpen : Bool) (line : Line) :
    Except Failure (Reading × Bool) := do
  match Scan.findComment d inBlock line.content with
  | none => throw (.endless line.number)
  | some outcome =>
    match Role.ofLine d noteOpen line.content outcome.comment with
    | .ok role => return (⟨line, role⟩, outcome.inBlock)
    | .error cause => throw (.defect ⟨cause, line.number⟩)

/-- What the lines are, and the notes read off them. -/
def readLines (d : Dialect) (inBlock : Bool) (pairing : Note.Pairing) :
    List Line → Except Failure (List Reading × Note.Pairing)
  | [] => return ([], pairing)
  | line :: rest => do
    let (reading, inBlock) ← readLine d inBlock pairing.isOpen line
    let pairing ← (pairing.feed reading.line.number reading.role).mapError .defect
    let (readings, pairing) ← readLines d inBlock pairing rest
    return (reading :: readings, pairing)

/-- How deep searches for the lines of notes are nested at most in a program. -/
def searchLimit : Nat := 990

/-- The extraction of a source text. There may be a limit to how deep searches for the
    lines of notes are nested. -/
def extract (d : Dialect) (source : Text) (limit : Option Nat := none) :
    Except Failure Extraction := do
  let (readings, pairing) ← readLines d false {} (Line.split source)
  let pending ← pairing.finish.mapError .defect
  let display := Display.ofReadings readings
  let (notes, orphans) ← (Note.anchor pending readings display limit).mapError .fault
  return ⟨display.code, notes, orphans⟩

end Extraction

end Marginalia
