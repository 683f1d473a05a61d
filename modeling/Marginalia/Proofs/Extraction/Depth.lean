import Marginalia.Proofs.Extraction.Defect
import Marginalia.Proofs.Extraction.Nesting

/-!
# How deep notes may be nested

A note without lines of its own takes them from the note around it, which may have none
either. So the search for its lines has as many searches nested in it as there are notes
around it without a line, and may be beyond any limit. Besides this a text can only have
an extraction or a defect.

* `spanWith_of_isSunk`: a search is beyond a limit of fewer notes than there are around
  the note;
* `extract_is_safe`: what can become of a text, whatever the limit;
* `extract_sunkSource`: whatever the limit, there is a text without a defect that is
  beyond it.
-/

namespace Marginalia

namespace Note

variable {roles : Array Role} {blocks : List Pending} {note : Pending} {n : Nat}

/-- The search for the lines of a note in more others than the limit is beyond it, if
    nothing is remembered. -/
theorem spanWith_of_isSunk (h : IsSunk roles blocks (n + 1) note) :
    spanWith roles blocks (some n) [] note = .error .tooDeep := by
  have hnone : ∀ note : Pending, Memory.known? [] note = none := fun note => by
    rw [Memory.known?]
    split <;> rfl
  induction n generalizing note with
  | zero =>
    cases h with
    | deeper hform haround hown =>
      rw [spanWith_enclosed hform (hnone note) haround, hown]
      rfl
  | succ n ih =>
    cases h with
    | deeper hform haround hown hsunk =>
      rw [spanWith_enclosed hform (hnone note) haround, hown]
      dsimp only [nested]
      rw [ok_bind, ok_bind, ih hsunk]
      rfl

/-- Notes are not anchored if the first of them is in more others than the limit. -/
theorem settle_of_isSunk {display : Display} {rest : List Pending}
    (h : IsSunk roles blocks (n + 1) note) :
    settle roles blocks display (some n) [] (note :: rest) = .error .tooDeep := by
  rw [settle, spanWith_of_isSunk h]
  rfl

end Note

namespace Extraction

variable {d : Dialect} {source : Text}

/-- In a dialect whose block delimiters are not both empty, every text has an extraction
    or a defect: a marker that is malformed, that closes what is not open, or that is
    never closed, on a line of the text. No search for a comment goes on for ever, no
    line is looked up in vain, and no text of a note is found outside of all notes. All
    that can happen besides is that a note is in more others without a line than the
    limit, if there is one. -/
theorem extract_is_safe (d : Dialect) (hd : d.blockOpen ≠ [] ∨ d.blockClose ≠ [])
    (limit : Option Nat) (source : Text) : (∃ e, extract d source limit = .ok e) ∨
      (∃ defect, extract d source limit = .error (.defect defect) ∧ 0 ≤ defect.line ∧
        defect.line < (Line.split source).length ∧ defect.cause ≠ .strayBody) ∨
      (extract d source limit = .error (.fault .tooDeep) ∧
        ∃ n, limit = some n ∧ HasSunkNote d source n) := by
  rcases extract_agrees d source limit with heq | ⟨failure, ⟨rfl, hsunk⟩, hfails⟩
  · rw [heq]
    cases hextract : extract d source with
    | ok e => exact .inl ⟨e, rfl⟩
    | error failure =>
      obtain ⟨defect, rfl, ⟨line, hline, hnumber⟩, hcause⟩ := isDefectOf_of_extract hd hextract
      refine .inr (.inl ⟨defect, rfl, ?_, ?_, hcause⟩)
      · rw [hnumber]
        exact Int.natCast_nonneg _
      · rw [hnumber]
        exact Int.ofNat_lt.2 (Line.number_lt_of_mem_split hline)
  · exact .inr (.inr ⟨hfails, hsunk⟩)

/-- A dialect in which a comment starts anywhere and every blank comment opens a note. A
    block comment would start anywhere too, but never does. -/
def bareDialect : Dialect where
  lineComment := []
  blockOpen := []
  blockClose := ['/']
  opening := []
  closing := []
  note := []

theorem extract_is_safe_bare : (bareDialect.blockOpen ≠ [] ∨ bareDialect.blockClose ≠ []) ∧
    extract bareDialect "x\n \n".toList (some 0) = .error (.defect ⟨.neverClosed none, 1⟩) ∧
      ((∃ e, extract bareDialect "x\n \n".toList (some 0) = .ok e) ∨
        (∃ defect, extract bareDialect "x\n \n".toList (some 0) = .error (.defect defect) ∧
          0 ≤ defect.line ∧ defect.line < (Line.split "x\n \n".toList).length ∧
          defect.cause ≠ .strayBody) ∨
        (extract bareDialect "x\n \n".toList (some 0) = .error (.fault .tooDeep) ∧
          ∃ n, some 0 = some n ∧ HasSunkNote bareDialect "x\n \n".toList n)) :=
  have hd : bareDialect.blockOpen ≠ [] ∨ bareDialect.blockClose ≠ [] := by decide
  ⟨hd, by decide +kernel, extract_is_safe bareDialect hd (some 0) _⟩

/-! ## Sunk notes -/

/-- A marker that opens a note without an id, and one that closes the innermost note. -/
def openingPiece : Text × Text := ("// @annotate".toList, ['\n'])

def closingPiece : Text × Text := ("// @end".toList, ['\n'])

/-- A text of so many notes in each other, without a line. -/
def sunkSource (count : Nat) : Text :=
  Line.joinPieces (List.replicate count openingPiece ++ List.replicate count closingPiece)

/-- The notes that are open after so many opening markers. -/
def sunkDrafts : Nat → List Note.Draft
  | 0 => []
  | m + 1 => ⟨none, m, m, [], []⟩ :: sunkDrafts m

/-- The note with its markers on these lines. -/
def sunkNote (opened closed : Nat) : Note.Pending :=
  Note.Draft.close ⟨none, opened, opened, [], []⟩ closed

/-- The first `m` notes of the text that are closed, the innermost first. -/
def sunkNotes (count m : Nat) : List Note.Pending :=
  (List.range m).map fun i => sunkNote (count - 1 - i) (count + i)

/-- What the opening markers of the text are read as, and so many of the others. -/
def sunkReadings (count m : Nat) : List Reading :=
  ((List.range count).map fun i => ⟨⟨i, openingPiece.1, openingPiece.2⟩, .opening none []⟩) ++
    (List.range m).map fun i => ⟨⟨count + i, closingPiece.1, closingPiece.2⟩, .closing none⟩

theorem length_sunkDrafts (m : Nat) : (sunkDrafts m).length = m := by
  induction m with
  | zero => rfl
  | succ m ih => rw [sunkDrafts, List.length_cons, ih]

theorem readLine_opening (noteOpen : Bool) (i : Nat) :
    readLine .standard false noteOpen ⟨i, openingPiece.1, openingPiece.2⟩ =
      .ok (⟨⟨i, openingPiece.1, openingPiece.2⟩, .opening none []⟩, false) := by
  cases noteOpen <;> rfl

theorem readLine_closing (noteOpen : Bool) (i : Nat) :
    readLine .standard false noteOpen ⟨i, closingPiece.1, closingPiece.2⟩ =
      .ok (⟨⟨i, closingPiece.1, closingPiece.2⟩, .closing none⟩, false) := by
  cases noteOpen <;> rfl

/-- A line is read and taken in after those before it. -/
theorem Reads.concat_line {inBlock inBlock' after : Bool} {p q r : Note.Pairing}
    {lines : List Line} {readings : List Reading} {line : Line} {role : Role}
    (h : Reads d inBlock p lines readings inBlock' q)
    (hline : readLine d inBlock' q.isOpen line = .ok (⟨line, role⟩, after))
    (happly : q.apply line.number role = .ok r) :
    Reads d inBlock p (lines ++ [line]) (readings ++ [⟨line, role⟩]) after r := by
  obtain ⟨outcome, role', hscan, hrole, heq, rfl⟩ := readLine_eq_ok_iff.1 hline
  obtain ⟨-, rfl⟩ := Reading.mk.inj heq
  exact h.append (.cons hscan hrole (Note.Pairing.apply_eq_ok_iff.1 happly) .nil)

theorem reads_openings (count : Nat) :
    Reads .standard false {} (Line.numbered (List.replicate count openingPiece))
      (sunkReadings count 0) false ⟨sunkDrafts count, []⟩ := by
  induction count with
  | zero => exact .nil
  | succ count ih =>
    have hreadings : sunkReadings (count + 1) 0 = sunkReadings count 0 ++
        [⟨⟨count, openingPiece.1, openingPiece.2⟩, .opening none []⟩] := by
      simp [sunkReadings, List.range_succ]
    rw [List.replicate_succ', Line.numbered_concat, List.length_replicate, hreadings]
    refine ih.concat_line (readLine_opening _ count) ?_
    simp [Note.Pairing.apply, Note.Pairing.openNote, Note.Pairing.openNote.push,
      Note.Pairing.depth, length_sunkDrafts, sunkDrafts]

theorem reads_closings (rest m : Nat) :
    Reads .standard false {}
      (Line.numbered (List.replicate (rest + m) openingPiece ++ List.replicate m closingPiece))
      (sunkReadings (rest + m) m) false ⟨sunkDrafts rest, sunkNotes (rest + m) m⟩ := by
  induction m generalizing rest with
  | zero =>
    rw [List.replicate_zero, List.append_nil]
    exact reads_openings rest
  | succ m ih =>
    have hcount : rest + (m + 1) = rest + 1 + m := by omega
    have hreadings : sunkReadings (rest + 1 + m) (m + 1) = sunkReadings (rest + 1 + m) m ++
        [⟨⟨rest + 1 + m + m, closingPiece.1, closingPiece.2⟩, .closing none⟩] := by
      simp [sunkReadings, List.range_succ]
    rw [hcount, List.replicate_succ', ← List.append_assoc, Line.numbered_concat,
      List.length_append, List.length_replicate, List.length_replicate, hreadings]
    refine (ih (rest + 1)).concat_line (readLine_closing _ _) ?_
    simp [Note.Pairing.apply, Note.Pairing.closeNote, Note.Pairing.add, sunkDrafts, sunkNotes,
      List.range_succ, sunkNote]

theorem split_sunkSource (count : Nat) : Line.split (sunkSource count) =
    Line.numbered (List.replicate count openingPiece ++ List.replicate count closingPiece) := by
  refine Line.split_joinPieces (Line.areLines_of_ended fun piece hpiece => ?_)
  rcases List.mem_append.1 hpiece with h | h
  · rw [List.eq_of_mem_replicate h]
    exact ⟨by decide, .inr ⟨rfl, by decide⟩⟩
  · rw [List.eq_of_mem_replicate h]
    exact ⟨by decide, .inr ⟨rfl, by decide⟩⟩

/-- The lines of the text are read, and its notes are all closed. -/
theorem reads_sunkSource (count : Nat) :
    Reads .standard false {} (Line.split (sunkSource count)) (sunkReadings count count) false
      ⟨[], sunkNotes count count⟩ := by
  have h := reads_closings 0 count
  rw [Nat.zero_add] at h
  rwa [split_sunkSource]

theorem not_isKept_of_mem_sunkReadings {count m : Nat} {reading : Reading}
    (h : reading ∈ sunkReadings count m) : ¬reading.role.isKept := by
  rcases List.mem_append.1 h with h | h
  · obtain ⟨i, -, rfl⟩ := List.mem_map.1 h
    exact Bool.false_ne_true
  · obtain ⟨i, -, rfl⟩ := List.mem_map.1 h
    exact Bool.false_ne_true

theorem sunkNotes_eq_blocksOf (count : Nat) :
    Note.blocksOf (sunkNotes count count) = sunkNotes count count := by
  refine List.filter_eq_self.2 fun note hnote => ?_
  obtain ⟨i, -, rfl⟩ := List.mem_map.1 hnote
  rfl

section Sunk

variable {count i n : Nat}

theorem isPlaced_sunkNote (h : i < count) : (sunkNote (count - 1 - i) (count + i)).IsPlaced
    (rolesOf (sunkReadings count count)) := by
  have hreads := reads_sunkSource count
  refine (hreads.isWritten.closed _ ?_).isPlaced hreads.numbered
  exact List.mem_map_of_mem (List.mem_range.2 h)

/-- The note closed next is the tightest one around a note of the text. -/
theorem enclosing?_sunkNote (h : i + 1 < count) :
    (sunkNote (count - 1 - i) (count + i)).enclosing? (sunkNotes count count) =
      some (sunkNote (count - 1 - (i + 1)) (count + (i + 1))) := by
  obtain ⟨m, rfl⟩ : ∃ m, count = i + 1 + (m + 1) := ⟨count - (i + 2), by omega⟩
  generalize hcount : i + 1 + (m + 1) = count at h ⊢
  have hsplit : sunkNotes count count =
      (List.range (i + 1)).map (fun j => sunkNote (count - 1 - j) (count + j)) ++
        (List.range (m + 1)).map fun j =>
          sunkNote (count - 1 - (i + 1 + j)) (count + (i + 1 + j)) := by
    rw [sunkNotes, ← hcount, List.range_add, List.map_append, List.map_map]
    rfl
  have hinner : ∀ note ∈ (List.range (i + 1)).map fun j => sunkNote (count - 1 - j) (count + j),
      ¬(sunkNote (count - 1 - i) (count + i)).isInside note := by
    intro note hnote
    obtain ⟨j, hj, rfl⟩ := List.mem_map.1 hnote
    have := List.mem_range.1 hj
    simp [Note.Pending.isInside, sunkNote, Note.Draft.close]
    omega
  have houter : ∀ note ∈ (List.range (m + 1)).map fun j =>
      sunkNote (count - 1 - (i + 1 + j)) (count + (i + 1 + j)),
      (sunkNote (count - 1 - i) (count + i)).isInside note := by
    intro note hnote
    obtain ⟨j, hj, rfl⟩ := List.mem_map.1 hnote
    have := List.mem_range.1 hj
    simp [Note.Pending.isInside, sunkNote, Note.Draft.close]
    omega
  rw [Note.Pending.enclosing?, hsplit, List.filter_append, List.filter_eq_nil_iff.2 hinner,
    List.filter_eq_self.2 houter, List.nil_append, List.range_succ_eq_map, List.map_cons]
  refine Note.Pending.tightest?_eq_some_iff.2
    ⟨[], _, rfl, fun _ hnote => absurd hnote List.not_mem_nil, fun note hnote => ?_⟩
  rw [List.map_map] at hnote
  obtain ⟨j, hj, rfl⟩ := List.mem_map.1 hnote
  simp only [Note.Pending.extent, sunkNote, Note.Draft.close, Function.comp_apply]
  omega

/-- No note of the text finds lines by itself. -/
theorem ownSpan_sunkNote (h : i + 1 < count) :
    Note.ownSpan (rolesOf (sunkReadings count count)) (sunkNote (count - 1 - i) (count + i))
      (some (sunkNote (count - 1 - (i + 1)) (count + (i + 1)))) = .ok none := by
  have hbound : Note.searchEnd (rolesOf (sunkReadings count count))
      (some (sunkNote (count - 1 - (i + 1)) (count + (i + 1)))) ≤
        (rolesOf (sunkReadings count count)).size := Int.le_of_lt (isPlaced_sunkNote h).closed_lt
  have hplaced := isPlaced_sunkNote (Nat.lt_of_succ_lt h)
  obtain ⟨found, hfound, hfinds⟩ := Note.exists_ownSpan hplaced (by nofun) hbound
  have hnone : ∀ line, ¬Note.LineIs Role.isKept (rolesOf (sunkReadings count count)) line := by
    intro line hline
    obtain ⟨_, reading, -, hreading, hkept⟩ := lineIs_rolesOf.1 hline
    exact not_isKept_of_mem_sunkReadings (List.mem_of_getElem? hreading) hkept
  cases hfinds with
  | enclosed _ hfirst => exact absurd hfirst.2.2 (hnone _)
  | following _ _ _ _ hfirst => exact absurd hfirst.isKept (hnone _)
  | nothing => exact hfound

theorem isSunk_sunkNote (h : i + n < count) :
    Note.IsSunk (rolesOf (sunkReadings count count)) (sunkNotes count count) n
      (sunkNote (count - 1 - i) (count + i)) := by
  induction n generalizing i with
  | zero => exact .surface
  | succ n ih =>
    have hnext : i + 1 < count := by omega
    exact .deeper (by nofun) (enclosing?_sunkNote hnext) (ownSpan_sunkNote hnext) (ih (by omega))

/-- A text of more notes in each other than the limit has neither an extraction nor a
    defect. -/
theorem extract_sunkSource (h : n + 1 < count) :
    extract .standard (sunkSource count) (some n) = .error (.fault .tooDeep) := by
  have hsunk := isSunk_sunkNote (n := n + 1) (Nat.lt_of_le_of_lt (Nat.le_of_eq (Nat.zero_add _)) h)
  obtain ⟨rest, hrest⟩ : ∃ rest,
      sunkNotes count count = sunkNote (count - 1 - 0) (count + 0) :: rest := by
    obtain ⟨m, rfl⟩ := Nat.exists_eq_succ_of_ne_zero (Nat.ne_zero_of_lt h)
    rw [sunkNotes, List.range_succ_eq_map]
    exact ⟨_, rfl⟩
  have hanchor : Note.anchor (sunkNotes count count) (sunkReadings count count)
      (Display.ofReadings (sunkReadings count count)) (some n) = .error .tooDeep := by
    rw [Note.anchor, ← Note.blocksOf, sunkNotes_eq_blocksOf, hrest]
    rw [hrest] at hsunk
    exact Note.settle_of_isSunk hsunk
  rw [extract, readLines_eq_ok_iff.2 ⟨false, reads_sunkSource count⟩, ok_bind]
  dsimp only [Note.Pairing.finish, Except.mapError]
  rw [ok_bind, hanchor]
  rfl

/-- A text of 1100 notes in each other without a line: it has no extraction in a program,
    nor a defect. -/
theorem deep_notes_have_no_extraction :
    (Dialect.standard.blockOpen ≠ [] ∨ Dialect.standard.blockClose ≠ []) ∧
      extract .standard (sunkSource 1100) (some searchLimit) = .error (.fault .tooDeep) ∧
      ¬((∃ e, extract .standard (sunkSource 1100) (some searchLimit) = .ok e) ∨
        ∃ defect, extract .standard (sunkSource 1100) (some searchLimit) =
          .error (.defect defect)) := by
  have hfails : extract .standard (sunkSource 1100) (some searchLimit) = .error (.fault .tooDeep) :=
    extract_sunkSource (by decide)
  refine ⟨by decide, hfails, ?_⟩
  rintro (⟨e, h⟩ | ⟨defect, h⟩)
  · cases hfails.symm.trans h
  · cases hfails.symm.trans h

end Sunk

end Extraction

end Marginalia
