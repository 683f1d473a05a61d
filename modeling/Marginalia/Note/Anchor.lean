import Marginalia.Note.Basic
import Marginalia.Note.Display

/-!
# Anchors

The lines a pending note is on. An inline note is on its own line. A note of one
line is on the next line of code that is not blank, and a note between markers on
the kept lines between them or, if there are none, on the next paragraph: the
lines up to a blank or a removed one.

A note inside others looks for its lines only up to the closing marker of the
tightest note around it. If it finds none it takes them from that note: the last
line of it or, if that note found its own lines only past its closing marker,
the same lines.

* `spanWith`: the lines of a note, by recursion to the note around it, remembering
  the lines of the notes between markers;
* `anchor`: the notes on the displayed code, and the ones without a line.

Every look at a line is checked: a line that does not exist or is not displayed
is a fault, not an answer. A search for the lines of a note may be part of one for
those of another note, and that of a third. There may be a limit to how deep
searches are nested in this way, and to be beyond it is a fault too.
-/

namespace Marginalia.Note

/-- Why notes cannot be anchored. -/
inductive Fault
  /-- There is no line of that number. -/
  | noLine (line : Int)
  /-- The line of that number is not displayed. -/
  | notDisplayed (line : Int)
  /-- Searches for lines are nested too deeply. -/
  | tooDeep
  deriving DecidableEq, Repr

/-- Some lines of the source text, from the first to the last. -/
structure Span where
  first : Int
  last : Int
  deriving DecidableEq, Repr

/-- The span of a single line. -/
def Span.single (line : Int) : Span := ⟨line, line⟩

/-! ## Looking for lines -/

/-- The number of lines from `line` on that come before `before`. -/
def linesUpTo (line before : Int) : Nat := (before - line).toNat

/-- The role of the line of that number. A negative number counts from the end. -/
def roleAt (roles : Array Role) (line : Int) : Except Fault Role :=
  let position := if line < 0 then line + roles.size else line
  match position.toNat?.bind (roles[·]?) with
  | some role => .ok role
  | none => .error (.noLine line)

/-- The first content line among `count` lines from `line` on. -/
def nextContent (roles : Array Role) (line : Int) : Nat → Except Fault (Option Int)
  | 0 => return none
  | count + 1 => do
    if (← roleAt roles line).isContent then return some line
    else nextContent roles (line + 1) count

/-- The last line of the paragraph that `line` is in, looking at `count` more
    lines. -/
def paragraphEnd (roles : Array Role) (line : Int) : Nat → Except Fault Int
  | 0 => return line
  | count + 1 => do
    if (← roleAt roles (line + 1)).isContent then paragraphEnd roles (line + 1) count
    else return line

/-- The kept lines among `count` lines from `line` on. -/
def keptLines (roles : Array Role) (line : Int) : Nat → Except Fault (List Int)
  | 0 => return []
  | count + 1 => do
    let role ← roleAt roles line
    let more ← keptLines roles (line + 1) count
    return if role.isKept then line :: more else more

/-- The span from the first to the last of some lines. -/
def Span.ofLines? : List Int → Option Span
  | [] => none
  | line :: more => some ⟨line, more.getLast?.getD line⟩

/-! ## The note around a note -/

namespace Pending

/-- Whether the markers of `block` are on both sides of the note. -/
def isInside (note block : Pending) : Bool :=
  block.opened < note.opened && note.closed < block.closed

/-- The number of lines from the opening to the closing marker. -/
def extent (note : Pending) : Int := note.closed - note.opened

/-- The first of the notes with the least extent. -/
def tightest? : List Pending → Option Pending
  | [] => none
  | note :: rest =>
    match tightest? rest with
    | none => some note
    | some other => if other.extent < note.extent then some other else some note

/-- The tightest of the blocks around a note. -/
def enclosing? (blocks : List Pending) (note : Pending) : Option Pending :=
  tightest? (blocks.filter (isInside note))

theorem mem_of_tightest? {notes : List Pending} {note : Pending}
    (h : tightest? notes = some note) : note ∈ notes := by
  induction notes generalizing note with
  | nil => simp [tightest?] at h
  | cons first rest ih =>
    rw [tightest?] at h
    split at h
    · simp_all
    · rename_i other hother
      split at h
      · obtain rfl := Option.some.inj h
        exact List.mem_cons_of_mem _ (ih hother)
      · obtain rfl := Option.some.inj h
        exact List.mem_cons_self

/-- The note around a note is opened before it. -/
theorem opened_lt_of_enclosing? {blocks : List Pending} {note block : Pending}
    (h : enclosing? blocks note = some block) : block.opened < note.opened := by
  have := (List.mem_filter.1 (mem_of_tightest? h)).2
  simp [isInside] at this
  exact this.1

/-- The number of blocks that are opened before a note. -/
def blocksBefore (note : Pending) (blocks : List Pending) : Nat :=
  blocks.countP (·.opened < note.opened)

/-- Fewer blocks are opened before the note around a note than before the note:
    the note around it is not among them. -/
theorem blocksBefore_lt_of_enclosing? {blocks : List Pending} {note block : Pending}
    (h : enclosing? blocks note = some block) :
    block.blocksBefore blocks < note.blocksBefore blocks := by
  have hlt := opened_lt_of_enclosing? h
  have hmem := (List.mem_filter.1 (mem_of_tightest? h)).1
  clear h
  induction blocks with
  | nil => simp at hmem
  | cons first rest ih =>
    have hle : block.blocksBefore rest ≤ note.blocksBefore rest :=
      List.countP_mono_left fun b _ hb => by
        simp only [decide_eq_true_eq] at hb ⊢
        omega
    simp only [blocksBefore, List.countP_cons, decide_eq_true_eq] at ih hle ⊢
    rcases List.mem_cons.1 hmem with rfl | hmem
    · simp only [Int.lt_irrefl, if_false, hlt, if_true]
      omega
    · have := ih hmem
      split <;> split <;> omega

end Pending

/-! ## The lines of a note -/

/-- The lines a note finds by itself, before the closing marker of the note
    around it. -/
def ownSpan (roles : Array Role) (note : Pending) (around : Option Pending) :
    Except Fault (Option Span) := do
  let before : Int := (around.map (·.closed)).getD roles.size
  match note.form with
  | .line =>
    let next ← nextContent roles (note.opened + 1) (linesUpTo (note.opened + 1) before)
    return next.map Span.single
  | _ =>
    let enclosed ← keptLines roles (note.opened + 1) (linesUpTo (note.opened + 1) note.closed)
    match Span.ofLines? enclosed with
    | some span => return some span
    | none =>
      match ← nextContent roles (note.closed + 1) (linesUpTo (note.closed + 1) before) with
      | none => return none
      | some start => return some ⟨start, ← paragraphEnd roles start (linesUpTo (start + 1) before)⟩

/-- The lines a note without own lines takes from those of the note around it. -/
def inherited (around : Pending) : Option Span → Option Span
  | none => none
  | some span => if around.closed < span.first then some span else some (.single span.last)

/-- How many searches may be nested in one that is nested in another, given how many
    may be nested in that one. -/
def nested : Option Nat → Except Fault (Option Nat)
  | none => .ok none
  | some 0 => .error .tooDeep
  | some (n + 1) => .ok (some n)

/-- The lines of the blocks met so far, by the lines of their markers. -/
abbrev Memory := List ((Int × Int) × Option Span)

namespace Memory

/-- What is remembered of the lines of a note. Only blocks are remembered, as only
    they are asked for again. -/
def known? (memory : Memory) (note : Pending) : Option (Option Span) :=
  if note.form = .block then memory.lookup (note.opened, note.closed) else none

/-- What is found for a note, and the memory with it. -/
def keep (memory : Memory) (note : Pending) (found : Option Span) : Option Span × Memory :=
  (found, if note.form = .block then ((note.opened, note.closed), found) :: memory else memory)

end Memory

/-- The lines of a note, which are not looked for again if they are remembered.
    Searches in this one are nested as deep as the limit, if there is one. -/
def spanWith (roles : Array Role) (blocks : List Pending) (limit : Option Nat) (memory : Memory)
    (note : Pending) : Except Fault (Option Span × Memory) :=
  if note.form = .inline then return (some (.single note.opened), memory)
  else
    match memory.known? note with
    | some known => return (known, memory)
    | none =>
      match _h : note.enclosing? blocks with
      | none => return memory.keep note (← ownSpan roles note none)
      | some around => do
        match ← ownSpan roles note (some around) with
        | some own => return memory.keep note own
        | none =>
          let (outer, memory) ← spanWith roles blocks (← nested limit) memory around
          return memory.keep note (inherited around outer)
termination_by note.blocksBefore blocks
decreasing_by exact Pending.blocksBefore_lt_of_enclosing? ‹_›

/-! ## Anchoring -/

/-- The displayed position of a line, which must be displayed. -/
def positionOf (display : Display) (line : Int) : Except Fault Nat :=
  match display.position? line with
  | some position => .ok position
  | none => .error (.notDisplayed line)

/-- A pending note put on lines of the displayed code. -/
def place (display : Display) (note : Pending) (span : Span) : Except Fault Note := do
  return {
    first := ← positionOf display span.first
    last := ← positionOf display span.last
    text := note.text
    column := note.column
    id := note.id
    depth := note.depth }

/-- The notes and the orphans that pending notes become, each in their order. -/
def settle (roles : Array Role) (blocks : List Pending) (display : Display) (limit : Option Nat)
    (memory : Memory) : List Pending → Except Fault (List Note × List Orphan)
  | [] => return ([], [])
  | pending :: rest => do
    let (found, memory) ← spanWith roles blocks limit memory pending
    match found with
    | none =>
      let (notes, orphans) ← settle roles blocks display limit memory rest
      return (notes, ⟨pending.opened⟩ :: orphans)
    | some span =>
      -- The lines are looked up before the rest is settled: the first fault is told.
      let note ← place display pending span
      let (notes, orphans) ← settle roles blocks display limit memory rest
      return (note :: notes, orphans)

/-- The notes on the displayed code that pending notes become, and the orphans. There
    may be a limit to how deep searches for lines are nested. -/
def anchor (pending : List Pending) (readings : List Reading) (display : Display)
    (limit : Option Nat := none) : Except Fault (List Note × List Orphan) :=
  settle (readings.map (·.role)).toArray (pending.filter (·.form == .block)) display limit []
    pending

end Marginalia.Note
