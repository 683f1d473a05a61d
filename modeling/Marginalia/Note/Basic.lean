import Marginalia.Marker.Defect

/-!
# Notes

A note on displayed code, before and after its lines are known. A note is
*pending* once it is closed: it knows the lines of the source text its markers
are on. Anchoring it gives either a note with lines of the displayed code, or
an *orphan*, a note without a displayed line to attach to.

The lines of a text are numbered from 0. Pending notes may also be made by hand,
with any numbers; these are therefore integers.
-/

namespace Marginalia

/-- How a note is written. -/
inductive Note.Form
  /-- Between an opening and a closing marker. -/
  | block
  /-- In a comment alone on its line. -/
  | line
  /-- After the code of a line. -/
  | inline
  deriving DecidableEq, Repr

/-- A closed note, in lines of the source text. -/
structure Note.Pending where
  form : Form
  /-- The line of the opening marker, or of the note itself. -/
  opened : Int
  /-- The line of the closing marker, or of the note itself. -/
  closed : Int
  text : Text
  /-- The id on the opening marker. -/
  id : Option Text
  /-- The number of notes open around it. -/
  depth : Int
  /-- The length of the code before an inline note. -/
  column : Option Int
  deriving DecidableEq, Repr

/-- A note on lines of the displayed code. -/
structure Note where
  /-- The first line it is on, counting from 0. -/
  first : Nat
  /-- The last line it is on. -/
  last : Nat
  text : Text
  /-- The length of the line, for a note that was written after it. -/
  column : Option Int
  id : Option Text
  /-- The number of notes it was written in. -/
  depth : Int
  deriving DecidableEq, Repr

/-- A note that was dropped, since there is no displayed line to attach it to. -/
structure Orphan where
  /-- The line of the source text it was opened on. -/
  line : Int
  deriving DecidableEq, Repr

namespace Orphan

/-- What a dropped note is told as. -/
def message : String := "Annotation has no displayed line to attach to and was dropped"

/-- What a dropped note of the source of that name is told as. -/
def describe (source : Text) (orphan : Orphan) : String :=
  message ++ describePlace source orphan.line

end Orphan

end Marginalia
