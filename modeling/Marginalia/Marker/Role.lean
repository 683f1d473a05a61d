import Marginalia.Dialect
import Marginalia.Marker.Defect
import Marginalia.Source.Line
import Marginalia.Source.Scan

/-!
# Roles

What a line is to the notes around it: a line of code, perhaps with a remark
after it, a marker that opens or closes a note, a line of a note's text, or a
note of its own. The comment of a line decides it (`Role.ofComment`), together
with whether the line has code before the comment and whether a note is open.

* `@annotate` and `@annotate(id)`, then the first line of the note, open a note;
* `@end` and `@end(id)` close the innermost open note or the one with that id;
* `NOTE:` and a text is a note on the next line of code or, after code, a remark
  on the line itself;
* any other comment alone on its line belongs to the open note, if there is one.
-/

namespace Marginalia

/-- A note written after the code of a line. -/
structure Remark where
  /-- The text of the note. -/
  text : Text
  /-- The length of the code before it, where it is known. -/
  column : Option Int
  deriving DecidableEq, Repr

/-- What a line is to the notes around it. -/
inductive Role
  /-- A line of the displayed code, with the part of it that is displayed. -/
  | plain (shown : Text) (remark : Option Remark)
  /-- A marker that opens a note, with the first line of the note. -/
  | opening (id : Option Text) (note : Text)
  /-- A marker that closes a note. -/
  | closing (id : Option Text)
  /-- A line of the text of the open note. -/
  | body (text : Text)
  /-- A note of one line. -/
  | note (text : Text)
  deriving DecidableEq, Repr

/-- A line and what it is. -/
structure Reading where
  line : Line
  role : Role
  deriving DecidableEq, Repr

namespace Role

/-- The displayed part of a line of code. -/
def shown? : Role → Option Text
  | plain shown _ => some shown
  | _ => none

/-- Whether the line is displayed. -/
def isKept (role : Role) : Bool := role.shown?.isSome

/-- Whether the line is displayed and not blank. -/
def isContent (role : Role) : Bool := role.shown?.any (!·.isBlankText)

/-- The remark on a line of code. -/
def remark? : Role → Option Remark
  | plain _ remark => remark
  | _ => none

/-- A character that an id may start with. -/
def startsId (c : Char) : Bool := c.isAlpha || c == '_'

/-- A character that may follow in an id. -/
def continuesId (c : Char) : Bool := c.isAlphanum || c == '_' || c == '.' || c == '-'

/-- Ids are made of ASCII letters, digits, underscores, points and hyphens, and
    start with a letter or an underscore. -/
def isId : Text → Bool
  | [] => false
  | c :: rest => startsId c && rest.all continuesId

/-- Whether a comment starts with a marker's word, which a blank, a parenthesis
    or the end must follow. -/
def startsMarker (sentinel comment : Text) : Bool :=
  match sentinel.isPrefixOf? comment with
  | none => false
  | some [] => true
  | some (c :: _) => Text.isBlank c || c == '('

/-- The id and the text after a marker's word. The id, in parentheses, must
    follow the word at once. -/
def idAndText : Text → Except Cause (Option Text × Text)
  | '(' :: payload =>
    match payload.dropWhile (· != ')') with
    | [] => .error .unclosedId
    | _ :: text =>
      match Text.strip (payload.takeWhile (· != ')')) with
      | [] => .error .emptyId
      | id => if isId id then .ok (some id, Text.strip text) else .error (.invalidId id)
  | payload =>
    if ['('].isPrefixOf payload.stripStart then .error .detachedId
    else .ok (none, payload.strip)

/-- The role of an opening marker alone on its line, given what follows its
    word. -/
def ofOpening (payload : Text) : Except Cause Role := do
  let (id, text) ← idAndText payload
  return opening id text

/-- The role of a closing marker alone on its line, given what follows its
    word, which must be no more than an id. -/
def ofClosing (sentinel payload : Text) : Except Cause Role := do
  match ← idAndText payload with
  | (id, []) => return closing id
  | (_, text) => throw (.textAfterClosing sentinel text)

/-- The role of a line with a line comment, given the code before it and the
    comment after its delimiter. The line itself is displayed where the comment
    says nothing to the notes. -/
def ofComment (d : Dialect) (noteOpen : Bool) (line code comment : Text) :
    Except Cause Role :=
  let words := comment.strip
  let alone := code.isBlankText
  if startsMarker d.opening words then
    if alone then ofOpening (words.drop d.opening.length)
    else throw (.notAlone d.opening)
  else if startsMarker d.closing words then
    if alone then ofClosing d.closing (words.drop d.closing.length)
    else throw (.notAlone d.closing)
  else
    match d.note.isPrefixOf? words with
    | some text =>
      match Text.strip text with
      | [] => throw (.emptyNote d.note)
      | text =>
        if alone then return note text
        else return plain code.stripEnd (some ⟨text, some code.stripEnd.length⟩)
    | none =>
      if alone && noteOpen then return body comment.stripEnd
      else return plain line none

/-- The role of a line, given where its line comment starts. -/
def ofLine (d : Dialect) (noteOpen : Bool) (line : Text) : Option Nat → Except Cause Role
  | none => return plain line none
  | some column =>
    ofComment d noteOpen line (line.take column) (line.drop (column + d.lineComment.length))

end Role

end Marginalia
