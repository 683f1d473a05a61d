import Marginalia.Marker.Role
import Marginalia.Note.Basic
import Marginalia.Note.Wording

/-!
# Pairing markers

Reading the lines of a source text in order, keeping the notes that are open
and the notes that are closed. A closing marker closes the innermost open note,
or, if it has an id, the open note with that id, wherever it is among the open
ones: notes may overlap. A body line belongs to the innermost open note.

A line that does not fit gives a defect and no new state, so a reader that goes
on goes on from the state before it.
-/

namespace Marginalia.Note

/-- A note that is open. -/
structure Draft where
  id : Option Text
  /-- The line of its opening marker. -/
  opened : Int
  /-- The number of notes that were open before it. -/
  depth : Int
  /-- The words on its opening marker. -/
  words : Text
  /-- Its body so far. -/
  body : List Text
  deriving DecidableEq, Repr

/-- The pending note a draft becomes when it is closed. -/
def Draft.close (draft : Draft) (line : Int) : Pending where
  form := .block
  opened := draft.opened
  closed := line
  text := word draft.words draft.body
  id := draft.id
  depth := draft.depth
  column := none

/-- The open notes, the innermost first, and the closed ones, in the order of
    closing. -/
structure Pairing where
  stack : List Draft := []
  closed : List Pending := []
  deriving DecidableEq, Repr

namespace Pairing

/-- The number of open notes. -/
def depth (p : Pairing) : Nat := p.stack.length

/-- Whether any note is open. -/
def isOpen (p : Pairing) : Bool := !p.stack.isEmpty

/-- Adds a closed note. -/
def add (p : Pairing) (note : Pending) : Pairing := { p with closed := p.closed ++ [note] }

/-- A note on a single line, inside the notes now open. -/
def single (p : Pairing) (form : Form) (line : Int) (text : Text) (column : Option Int) :
    Pending where
  form := form
  opened := line
  closed := line
  text := text
  id := none
  depth := p.depth
  column := column

/-- Opens a note. No open note may have its id. -/
def openNote (p : Pairing) (line : Int) (id : Option Text) (words : Text) :
    Except Cause Pairing :=
  match id with
  | some name =>
    if p.stack.any (·.id == some name) then .error (.idInUse name) else .ok (push id)
  | none => .ok (push id)
where
  /-- The state with the new draft on top. -/
  push (id : Option Text) : Pairing := { p with stack := ⟨id, line, p.depth, words, []⟩ :: p.stack }

/-- Closes the innermost open note, or the one with the given id. -/
def closeNote (p : Pairing) (line : Int) (id : Option Text) : Except Cause Pairing :=
  match p.stack, id with
  | [], _ => .error .nothingOpen
  | draft :: rest, none => .ok (add { p with stack := rest } (draft.close line))
  | stack, some name =>
    match stack.find? (·.id == some name) with
    | none => .error (.unknownId name)
    | some draft =>
      .ok (add { p with stack := stack.eraseP (·.id == some name) } (draft.close line))

/-- Adds a line to the body of the innermost open note. -/
def addBody (p : Pairing) (text : Text) : Except Cause Pairing :=
  match p.stack with
  | [] => .error .strayBody
  | draft :: rest => .ok { p with stack := { draft with body := draft.body ++ [text] } :: rest }

/-- Takes in what a line is. -/
def apply (p : Pairing) (line : Int) : Role → Except Cause Pairing
  | .plain _ none => .ok p
  | .plain _ (some remark) => .ok (p.add (p.single .inline line remark.text remark.column))
  | .opening id words => p.openNote line id words
  | .closing id => p.closeNote line id
  | .body text => p.addBody text
  | .note text => .ok (p.add (p.single .line line text none))

/-- Takes in what the line of that number is. A line that does not fit has a
    defect. -/
def feed (p : Pairing) (line : Int) (role : Role) : Except Defect Pairing :=
  (p.apply line role).mapError (⟨·, line⟩)

/-- The closed notes, in the order of closing, if no note is left open. -/
def finish (p : Pairing) : Except Defect (List Pending) :=
  match p.stack with
  | [] => .ok p.closed
  | draft :: _ => .error ⟨.neverClosed draft.id, draft.opened⟩

end Pairing

end Marginalia.Note
