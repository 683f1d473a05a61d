import Marginalia.Text.Quoted

/-!
# Defects

What can be wrong with the markers of a source text: each cause, the kind it
belongs to, and how it is told. A defect is a cause on a line; the first defect
of a text ends the reading of it.
-/

namespace Marginalia

/-- The kinds of defects. -/
inductive DefectKind
  /-- A marker that cannot be read or does not belong where it is. -/
  | malformed
  /-- A closing marker without an open note to close. -/
  | mismatched
  /-- A note that is never closed. -/
  | unterminated
  deriving DecidableEq, Repr

/-- What is wrong. -/
inductive Cause
  /-- A marker stands after code. -/
  | notAlone (sentinel : Text)
  /-- The id of a marker is set off by blanks. -/
  | detachedId
  /-- The id of a marker lacks its closing parenthesis. -/
  | unclosedId
  /-- There is nothing between the parentheses of a marker. -/
  | emptyId
  /-- What stands between the parentheses is no id. -/
  | invalidId (id : Text)
  /-- A closing marker is followed by text. -/
  | textAfterClosing (sentinel text : Text)
  /-- A note of one line is empty. -/
  | emptyNote (sentinel : Text)
  /-- Text of a note stands where no note is open. -/
  | strayBody
  /-- A marker opens a note with the id of an open one. -/
  | idInUse (id : Text)
  /-- A closing marker stands where no note is open. -/
  | nothingOpen
  /-- A closing marker has the id of no open note. -/
  | unknownId (id : Text)
  /-- A note is open at the end. -/
  | neverClosed (id : Option Text)
  deriving DecidableEq, Repr

namespace Cause

/-- The kind of defect a cause leads to. -/
def kind : Cause → DefectKind
  | nothingOpen | unknownId _ => .mismatched
  | neverClosed _ => .unterminated
  | _ => .malformed

/-- What a cause is told as. An empty id is told as none. -/
def message : Cause → String
  | notAlone sentinel =>
    "Marker " ++ sentinel.quoted ++ " must be on its own line, not after code"
  | detachedId => "Annotation marker id must follow the sentinel without spaces"
  | unclosedId => "Unclosed '(' in annotation marker id"
  | emptyId => "Empty annotation marker id"
  | invalidId id => "Invalid annotation marker id " ++ id.quoted
  | textAfterClosing sentinel text =>
    "Unexpected text after " ++ sentinel.quoted ++ ": " ++ text.quoted
  | emptyNote sentinel => "Empty " ++ sentinel.quoted ++ " annotation"
  | strayBody => "Note text outside an open annotation"
  | idInUse id => "Annotation id " ++ id.quoted ++ " is already open"
  | nothingOpen => "Close marker without an open annotation"
  | unknownId id => "Close marker " ++ id.quoted ++ " does not match any open annotation"
  | neverClosed (some (c :: id)) => "Annotation " ++ Text.quoted (c :: id) ++ " is never closed"
  | neverClosed _ => "Annotation is never closed"

end Cause

/-- The place of a line, given by its number, as messages tell it: with the name
    of the source, and counting from one. -/
def describePlace (source : Text) (line : Int) : String :=
  " (source=" ++ String.ofList source ++ ", line=" ++ toString (line + 1) ++ ")"

/-- A cause and the number of the line it is found on. -/
structure Defect where
  cause : Cause
  line : Int
  deriving DecidableEq, Repr

/-- What a defect of the source of that name is told as. -/
def Defect.describe (source : Text) (defect : Defect) : String :=
  defect.cause.message ++ describePlace source defect.line

end Marginalia
