import Mathlib.Data.List.Nodup
import Marginalia.Proofs.Extraction.Reading
import Marginalia.Proofs.Marker.Written

/-!
# Writing notes into a text

Notes are written into a text by putting markers between its lines: one that opens
the note before the first of some lines, and one that closes it after the last of
them (`IsWeaving`). The markers between the same two lines may be in any order, so
that notes may be nested, overlap or touch each other.

* `IsWeaving.mem_opened`: a note is opened before it is closed;
* `IsWeaving.first_le`, `IsWeaving.le_last`: an open note is open on its lines;
* `IsWeaving.id_not_mem_opened`, `IsWeaving.not_mem_closed`: each note is opened
  once and closed once.
-/

namespace Marginalia

/-- A note to be written around the lines of a text from `first` to `last`. -/
structure Mark where
  id : Text
  words : Text
  first : Nat
  last : Nat
  deriving DecidableEq, Repr

/-- The id is one, the words fit on a marker and are without blanks at their ends,
    and there is a line to write around. -/
structure Mark.IsValid (mark : Mark) : Prop where
  id : Role.isId mark.id
  words : Text.strip mark.words = mark.words
  newline : '\n' ∉ mark.words
  first_le_last : mark.first ≤ mark.last

/-- What a text with notes written into it consists of. -/
inductive Entry
  /-- A line of the text. -/
  | line (line : Line)
  /-- The marker that opens a note. -/
  | opening (mark : Mark)
  /-- The marker that closes a note. -/
  | closing (mark : Mark)
  deriving DecidableEq, Repr

namespace Entry

/-- The content and the line end of an entry. -/
def piece : Entry → Text × Text
  | line l => l.piece
  | opening mark => (openingMarker mark.id mark.words, ['\n'])
  | closing mark => (closingMarker mark.id, ['\n'])

def line? : Entry → Option Line
  | line l => some l
  | _ => none

def opened? : Entry → Option Mark
  | opening mark => some mark
  | _ => none

def closed? : Entry → Option Mark
  | closing mark => some mark
  | _ => none

end Entry

/-- The text that entries make. -/
def textOf (entries : List Entry) : Text := Line.joinPieces (entries.map (·.piece))

/-- The lines among some entries. -/
def linesOf (entries : List Entry) : List Line := entries.filterMap (·.line?)

/-- The notes that some entries open, in their order. -/
def openedIn (entries : List Entry) : List Mark := entries.filterMap (·.opened?)

/-- The notes that some entries close, in their order. -/
def closedIn (entries : List Entry) : List Mark := entries.filterMap (·.closed?)

/-- Every note is opened just before its first line and closed just after its last,
    if `n` lines are before the entries. -/
def InPlace : Nat → List Entry → Prop
  | _, [] => True
  | n, .line _ :: rest => InPlace (n + 1) rest
  | n, .opening mark :: rest => n = mark.first ∧ InPlace n rest
  | n, .closing mark :: rest => n = mark.last + 1 ∧ InPlace n rest

instance : (n : Nat) → (entries : List Entry) → Decidable (InPlace n entries)
  | _, [] => .isTrue trivial
  | n, .line _ :: rest => instDecidableInPlace (n + 1) rest
  | n, .opening _ :: rest => haveI := instDecidableInPlace n rest; inferInstanceAs (Decidable (_ ∧ _))
  | n, .closing _ :: rest => haveI := instDecidableInPlace n rest; inferInstanceAs (Decidable (_ ∧ _))

/-- The entries are the lines with each of the notes written into them once. -/
structure IsWeaving (lines : List Line) (marks : List Mark) (entries : List Entry) : Prop where
  lines_eq : linesOf entries = lines
  opened : (openedIn entries).Perm marks
  closed : (closedIn entries).Perm marks
  inPlace : InPlace 0 entries

theorem linesOf_append (before after : List Entry) :
    linesOf (before ++ after) = linesOf before ++ linesOf after := List.filterMap_append

theorem openedIn_append (before after : List Entry) :
    openedIn (before ++ after) = openedIn before ++ openedIn after := List.filterMap_append

theorem closedIn_append (before after : List Entry) :
    closedIn (before ++ after) = closedIn before ++ closedIn after := List.filterMap_append

variable {before : List Entry} {entry : Entry}

theorem linesOf_concat_of_none (h : entry.line? = none) :
    linesOf (before ++ [entry]) = linesOf before := filterMap_concat_of_none h

theorem openedIn_concat_of_none (h : entry.opened? = none) :
    openedIn (before ++ [entry]) = openedIn before := filterMap_concat_of_none h

theorem closedIn_concat_of_none (h : entry.closed? = none) :
    closedIn (before ++ [entry]) = closedIn before := filterMap_concat_of_none h

/-- What is in place is so after the lines before it. -/
theorem InPlace.of_append {n : Nat} {before after : List Entry} (h : InPlace n (before ++ after)) :
    InPlace (n + (linesOf before).length) after := by
  induction before generalizing n with
  | nil => exact h
  | cons entry before ih =>
    cases entry with
    | line line =>
      have hline : (linesOf (.line line :: before)).length = (linesOf before).length + 1 := rfl
      have hrest := ih (n := n + 1) h
      rwa [hline, Nat.add_comm (linesOf before).length, ← Nat.add_assoc]
    | opening | closing => exact ih h.2

theorem exists_append_of_mem_openedIn {mark : Mark} {entries : List Entry}
    (h : mark ∈ openedIn entries) : ∃ before after, entries = before ++ .opening mark :: after := by
  obtain ⟨entry, hentry, hopened⟩ := List.mem_filterMap.1 h
  cases entry with
  | opening mark' =>
    obtain rfl := Option.some.inj hopened
    exact List.append_of_mem hentry
  | line | closing => cases hopened

theorem exists_append_of_mem_closedIn {mark : Mark} {entries : List Entry}
    (h : mark ∈ closedIn entries) : ∃ before after, entries = before ++ .closing mark :: after := by
  obtain ⟨entry, hentry, hclosed⟩ := List.mem_filterMap.1 h
  cases entry with
  | closing mark' =>
    obtain rfl := Option.some.inj hclosed
    exact List.append_of_mem hentry
  | line | opening => cases hclosed

namespace IsWeaving

variable {lines : List Line} {marks : List Mark} {entries before after : List Entry} {mark : Mark}

/-- A note is opened just before its first line. -/
theorem first_eq (h : IsWeaving lines marks (before ++ .opening mark :: after)) :
    (linesOf before).length = mark.first := by
  have hplace := h.inPlace.of_append.1
  rwa [Nat.zero_add] at hplace

/-- A note is closed just after its last line. -/
theorem last_eq (h : IsWeaving lines marks (before ++ .closing mark :: after)) :
    (linesOf before).length = mark.last + 1 := by
  have hplace := h.inPlace.of_append.1
  rwa [Nat.zero_add] at hplace

theorem take_lines (h : IsWeaving lines marks (before ++ after)) :
    lines.take (linesOf before).length = linesOf before := by
  rw [← h.lines_eq, linesOf_append, List.take_left]

theorem mem_of_opening (h : IsWeaving lines marks (before ++ .opening mark :: after)) :
    mark ∈ marks := by
  refine h.opened.mem_iff.1 ?_
  rw [openedIn_append]
  exact List.mem_append_right _ List.mem_cons_self

theorem mem_of_closing (h : IsWeaving lines marks (before ++ .closing mark :: after)) :
    mark ∈ marks := by
  refine h.closed.mem_iff.1 ?_
  rw [closedIn_append]
  exact List.mem_append_right _ List.mem_cons_self

theorem mem_of_mem_opened (h : IsWeaving lines marks (before ++ after))
    (hm : mark ∈ openedIn before) : mark ∈ marks := by
  refine h.opened.mem_iff.1 ?_
  rw [openedIn_append]
  exact List.mem_append_left _ hm

/-- A note is opened before as many lines as it says. -/
theorem first_le (h : IsWeaving lines marks (before ++ after)) (hm : mark ∈ openedIn before) :
    mark.first ≤ (linesOf before).length := by
  obtain ⟨b, a, rfl⟩ := exists_append_of_mem_openedIn hm
  rw [List.append_assoc, List.cons_append] at h
  rw [linesOf_append, List.length_append, h.first_eq]
  exact Nat.le_add_right ..

/-- A note that is not closed before a line reaches over the line. -/
theorem le_last {line : Line} (h : IsWeaving lines marks (before ++ .line line :: after))
    (hm : mark ∈ marks) (hopen : mark ∉ closedIn before) :
    (linesOf before).length ≤ mark.last := by
  have hclosed : mark ∈ closedIn before ++ closedIn after := by
    have := h.closed.mem_iff.2 hm
    rwa [closedIn_append] at this
  -- It is closed after the line, and so after one more line than are before it.
  obtain ⟨b, a, rfl⟩ := exists_append_of_mem_closedIn ((List.mem_append.1 hclosed).resolve_left hopen)
  rw [← List.cons_append, ← List.append_assoc] at h
  have hlast := h.last_eq
  rw [linesOf_append, List.length_append] at hlast
  have hline : (linesOf (.line line :: b)).length = (linesOf b).length + 1 := rfl
  omega

/-- A note is opened before it is closed. -/
theorem mem_opened (h : IsWeaving lines marks (before ++ .closing mark :: after))
    (hle : mark.first ≤ mark.last) : mark ∈ openedIn before := by
  have hlast := h.last_eq
  have hopened : mark ∈ openedIn before ++ openedIn after := by
    have := h.opened.mem_iff.2 h.mem_of_closing
    rwa [openedIn_append] at this
  rcases List.mem_append.1 hopened with hopened | hopened
  · exact hopened
  · -- It would be opened after its last line.
    obtain ⟨b, a, rfl⟩ := exists_append_of_mem_openedIn hopened
    rw [← List.cons_append, ← List.append_assoc] at h
    have hfirst := h.first_eq
    rw [linesOf_append, List.length_append] at hfirst
    omega

/-- Each note is opened once. -/
theorem id_not_mem_opened (h : IsWeaving lines marks (before ++ .opening mark :: after))
    (hids : (marks.map (·.id)).Nodup) : mark.id ∉ (openedIn before).map (·.id) := by
  have hnodup := (h.opened.map (·.id)).nodup_iff.2 hids
  rw [openedIn_append, List.map_append] at hnodup
  exact fun hmem => (List.nodup_append.1 hnodup).2.2 _ hmem _ List.mem_cons_self rfl

/-- Each note is closed once. -/
theorem not_mem_closed (h : IsWeaving lines marks (before ++ .closing mark :: after))
    (hids : (marks.map (·.id)).Nodup) : mark ∉ closedIn before := by
  have hnodup := h.closed.nodup_iff.2 (hids.of_map _)
  rw [closedIn_append] at hnodup
  exact fun hmem => (List.nodup_append.1 hnodup).2.2 _ hmem _ List.mem_cons_self rfl

theorem nodup_ids (h : IsWeaving lines marks (before ++ after)) (hids : (marks.map (·.id)).Nodup) :
    ((openedIn before).map (·.id)).Nodup := by
  have hnodup := (h.opened.map (·.id)).nodup_iff.2 hids
  rw [openedIn_append, List.map_append] at hnodup
  exact (List.nodup_append.1 hnodup).1

end IsWeaving

end Marginalia
