import Marginalia.Note.Pairing

/-!
# Keeping notes

The open and the closed notes kept in one place, and changed there as lines are handed
in. A line is taken in step by step: a note that it closes is first taken from the open
ones, then put with the closed ones. A step that cannot be done ends this with a defect,
and what was changed before it stays changed.

Whoever hands in the lines may go on after a defect, and may ask for the closed notes at
any time.
-/

namespace Marginalia.Note

/-- A change of the notes kept that may end with a defect on the way. -/
abbrev Keeping := EStateM Defect Pairing

namespace Keeping

/-- Puts a note on the open ones. No open note may have its id. -/
def openNote (line : Int) (id : Option Text) (words : Text) : Keeping Unit := do
  if let some name := id then
    if (← get).stack.any (·.id == some name) then throw ⟨.idInUse name, line⟩
  modify fun p => { p with stack := ⟨id, line, p.depth, words, []⟩ :: p.stack }

/-- Takes from the open notes the one that a closing marker with this id closes. -/
def takeOpen (line : Int) (id : Option Text) : Keeping Draft := do
  let p ← get
  match p.stack, id with
  | [], _ => throw ⟨.nothingOpen, line⟩
  | draft :: rest, none =>
    set { p with stack := rest }
    return draft
  | stack, some name =>
    match stack.find? (·.id == some name) with
    | none => throw ⟨.unknownId name, line⟩
    | some draft =>
      set { p with stack := stack.eraseP (·.id == some name) }
      return draft

/-- Adds a line to the body of the innermost open note. -/
def addBody (line : Int) (text : Text) : Keeping Unit := do
  let p ← get
  match p.stack with
  | [] => throw ⟨.strayBody, line⟩
  | draft :: rest => set { p with stack := { draft with body := draft.body ++ [text] } :: rest }

/-- Puts a note with the closed ones. -/
def putClosed (note : Pending) : Keeping Unit := modify (·.add note)

/-- Takes in what the line of that number is. -/
def feed (line : Int) : Role → Keeping Unit
  | .plain _ none => return
  | .plain _ (some remark) => do
    putClosed ((← get).single .inline line remark.text remark.column)
  | .opening id words => openNote line id words
  | .closing id => do
    let draft ← takeOpen line id
    putClosed (draft.close line)
  | .body text => addBody line text
  | .note text => do putClosed ((← get).single .line line text none)

/-- Tells the closed notes, if no note is open. -/
def finish : Keeping (List Pending) := do
  match (← get).stack with
  | [] => return (← get).closed
  | draft :: _ => throw ⟨.neverClosed draft.id, draft.opened⟩

/-! ## Requests -/

/-- What is asked of whoever keeps the notes. -/
inductive Request
  /-- To take in a line. -/
  | feed (line : Int) (role : Role)
  /-- To tell the closed notes. -/
  | finish
  deriving DecidableEq, Repr

/-- What comes of a request, and what is seen of the notes kept after it. -/
structure Answer where
  defect : Option Defect := none
  /-- The closed notes, where they are asked for and told. -/
  notes : Option (List Pending) := none
  depth : Nat
  isOpen : Bool
  deriving DecidableEq, Repr

/-- Does what is asked. -/
def Request.carryOut : Request → Keeping (Option (List Pending))
  | feed line role => do
    Keeping.feed line role
    return none
  | finish => do return some (← Keeping.finish)

/-- The answer to a request, and the notes kept after it. -/
def answer (p : Pairing) (request : Request) : Answer × Pairing :=
  match request.carryOut p with
  | .ok notes q => ({ notes, depth := q.depth, isOpen := q.isOpen }, q)
  | .error defect q => ({ defect := some defect, depth := q.depth, isOpen := q.isOpen }, q)

/-- The answers to requests in turn, and the notes kept after them. -/
def answerAll (p : Pairing) : List Request → List Answer × Pairing
  | [] => ([], p)
  | request :: rest =>
    let (first, p) := answer p request
    let (answers, p) := answerAll p rest
    (first :: answers, p)

end Keeping

end Marginalia.Note
