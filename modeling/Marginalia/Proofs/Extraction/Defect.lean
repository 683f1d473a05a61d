import Marginalia.Proofs.Extraction.Account
import Marginalia.Proofs.Source.Termination

/-!
# Texts without an extraction

If the delimiters of block comments are not both empty, the search for a comment ends on
every line, and the notes that are read off the lines can all be anchored. So a text that
has no extraction has a defect, which is on one of its lines (`IsDefectOf`). It is never
that text of a note stands where no note is open: the line would not have been taken for
such text.

* `readLines_eq_error_iff`: lines are not read if one of them is not;
* `isDefectOf_of_extract`: what is wrong with a text that has no extraction;
* `exists_defect_of_extract`: so it is in the standard dialect, whatever the limit to
  how deep searches for the lines of notes are nested, unless the text is beyond it.
-/

namespace Marginalia

theorem Line.number_lt_of_mem_split {source : Text} {line : Line} (h : line ∈ split source) :
    line.number < (split source).length := by
  obtain ⟨i, hi⟩ := List.mem_iff_getElem?.1 h
  rw [number_of_getElem?_split hi]
  exact (List.getElem?_eq_some_iff.1 hi).1

namespace Note.Pairing

variable {p : Pairing}

/-- What can be wrong with a line that is taken in: text of a note is out of place only
    where no note is open, and no line is found to leave a note open. -/
theorem cause_of_apply {line : Int} {role : Role} {cause : Cause}
    (h : p.apply line role = .error cause) :
    cause.kind ≠ .unterminated ∧
      (cause = .strayBody → (∃ text, role = .body text) ∧ p.isOpen = false) := by
  cases role with
  | plain shown remark => cases remark <;> cases h
  | opening id words =>
    rw [apply, openNote.eq_def] at h
    split at h
    · split at h
      · obtain rfl := Except.error.inj h
        exact ⟨DefectKind.noConfusion, Cause.noConfusion⟩
      · cases h
    · cases h
  | closing id =>
    rw [apply, closeNote.eq_def] at h
    split at h
    · obtain rfl := Except.error.inj h
      exact ⟨DefectKind.noConfusion, Cause.noConfusion⟩
    · cases h
    · split at h
      · obtain rfl := Except.error.inj h
        exact ⟨DefectKind.noConfusion, Cause.noConfusion⟩
      · cases h
  | body text =>
    obtain ⟨stack, closed⟩ := p
    cases stack with
    | nil =>
      obtain rfl := Except.error.inj h
      exact ⟨DefectKind.noConfusion, fun _ => ⟨⟨text, rfl⟩, rfl⟩⟩
    | cons => cases h
  | note text => cases h

/-- What is wrong at the end is that a note is open, and the innermost one is told. -/
theorem finish_eq_error_iff {defect : Defect} :
    p.finish = .error defect ↔ ∃ draft below, p.stack = draft :: below ∧
      defect = ⟨.neverClosed draft.id, draft.opened⟩ := by
  obtain ⟨stack, closed⟩ := p
  cases stack with
  | nil => exact ⟨nofun, nofun⟩
  | cons draft below =>
    constructor
    · exact fun h => ⟨draft, below, rfl, (Except.error.inj h).symm⟩
    · rintro ⟨_, _, hstack, rfl⟩
      obtain ⟨rfl, rfl⟩ := List.cons.inj hstack
      rfl

end Note.Pairing

theorem Cause.IsOfComment.kind_eq {cause : Cause} (h : cause.IsOfComment) :
    cause.kind = .malformed := by
  cases cause with
  | notAlone | detachedId | unclosedId | emptyId | invalidId | textAfterClosing | emptyNote => rfl
  | strayBody | idInUse | nothingOpen | unknownId | neverClosed => exact h.elim

theorem Cause.IsOfComment.ne_strayBody {cause : Cause} (h : cause.IsOfComment) :
    cause ≠ .strayBody := by
  rintro rfl
  exact h

namespace Extraction

variable {d : Dialect} {source : Text} {inBlock : Bool} {line : Line}
  {lines : List Line} {p : Note.Pairing} {failure : Failure} {defect : Defect}

/-- The defect is on one of the lines, and is one that a text can have. -/
structure IsDefectOf (lines : List Line) (defect : Defect) : Prop where
  onLine : ∃ line ∈ lines, defect.line = line.number
  cause : defect.cause ≠ .strayBody

/-- If a line is not read, the search for its comment does not end or the line has a
    defect. Text of a note is not out of place, as a line is taken for such text only
    where a note is open. -/
theorem failure_of_readOne (h : readOne d inBlock p line = .error failure) :
    (Scan.findComment d inBlock line.content = none ∧ failure = .endless line.number) ∨
      ∃ cause, failure = .defect ⟨cause, line.number⟩ ∧ cause ≠ .strayBody ∧
        cause.kind ≠ .unterminated := by
  rcases bind_eq_error.1 h with h | ⟨⟨reading, inBlock'⟩, hline, h⟩
  · unfold readLine at h
    split at h
    next hscan => exact .inl ⟨hscan, (Except.error.inj h).symm⟩
    · split at h
      · cases h
      next cause hcause =>
      have hcomment := Role.isOfComment_of_ofLine hcause
      refine .inr ⟨cause, (Except.error.inj h).symm, hcomment.ne_strayBody, ?_⟩
      rw [hcomment.kind_eq]
      exact DefectKind.noConfusion
  · obtain ⟨outcome, role, -, hrole, rfl, -⟩ := readLine_eq_ok_iff.1 hline
    rcases bind_eq_error.1 h with h | ⟨p', -, h⟩
    · obtain ⟨defect, hfeed, rfl⟩ := mapError_eq_error.1 h
      obtain ⟨cause, happly, rfl⟩ := mapError_eq_error.1 hfeed
      obtain ⟨hkind, hstray⟩ := Note.Pairing.cause_of_apply happly
      refine .inr ⟨cause, rfl, fun hcause => ?_, hkind⟩
      obtain ⟨⟨text, rfl⟩, hopen⟩ := hstray hcause
      rw [hrole.isOpen_of_body] at hopen
      cases hopen
    · cases h

theorem readLines_cons_eq_error_iff :
    readLines d inBlock p (line :: lines) = .error failure ↔
      readOne d inBlock p line = .error failure ∨ ∃ reading inBlock' p',
        readOne d inBlock p line = .ok (reading, inBlock', p') ∧
          readLines d inBlock' p' lines = .error failure := by
  rw [readLines_cons, bind_eq_error]
  refine or_congr_right ⟨?_, ?_⟩
  · rintro ⟨⟨reading, inBlock', p'⟩, hline, h⟩
    rcases bind_eq_error.1 h with h | ⟨_, -, h⟩
    · exact ⟨reading, inBlock', p', hline, h⟩
    · cases h
  · rintro ⟨reading, inBlock', p', hline, h⟩
    exact ⟨_, hline, bind_eq_error.2 (.inl h)⟩

/-- Lines are not read if one of them is not, after those before it. -/
theorem readLines_eq_error_iff :
    readLines d inBlock p lines = .error failure ↔
      ∃ before line after readings inBlock' p', lines = before ++ line :: after ∧
        Reads d inBlock p before readings inBlock' p' ∧
        readOne d inBlock' p' line = .error failure := by
  induction lines generalizing inBlock p with
  | nil =>
    refine ⟨fun h => (by cases h), ?_⟩
    rintro ⟨before, line, after, -, -, -, h, -⟩
    cases before <;> cases h
  | cons line lines ih =>
    rw [readLines_cons_eq_error_iff]
    constructor
    · rintro (h | ⟨reading, inBlock', p', hline, h⟩)
      · exact ⟨[], line, lines, [], inBlock, p, rfl, .nil, h⟩
      · obtain ⟨before, line', after, readings, inBlock'', p'', rfl, hbefore, hfails⟩ := ih.1 h
        obtain ⟨outcome, role, hscan, hrole, hstep, rfl, rfl⟩ := readOne_eq_ok_iff.1 hline
        exact ⟨line :: before, line', after, _, inBlock'', p'', rfl,
          .cons hscan hrole hstep hbefore, hfails⟩
    · rintro ⟨before, line', after, readings, inBlock'', p'', hlines, hbefore, h⟩
      cases hbefore with
      | nil =>
        obtain ⟨rfl, rfl⟩ := List.cons.inj hlines
        exact .inl h
      | cons hscan hrole hstep hbefore =>
        obtain ⟨rfl, rfl⟩ := List.cons.inj hlines
        exact .inr ⟨_, _, _, readOne_eq_ok_iff.2 ⟨_, _, hscan, hrole, hstep, rfl, rfl⟩,
          ih.2 ⟨_, line', after, _, inBlock'', p'', rfl, hbefore, h⟩⟩

/-- The first line that does not fit has a defect. -/
theorem isDefectOf_of_readLines (hd : d.blockOpen ≠ [] ∨ d.blockClose ≠ [])
    (h : readLines d inBlock p lines = .error failure) :
    ∃ defect, failure = .defect defect ∧ IsDefectOf lines defect := by
  obtain ⟨before, line, after, -, inBlock', p', rfl, -, h⟩ := readLines_eq_error_iff.1 h
  obtain ⟨outcome, houtcome⟩ := Scan.exists_findComment hd inBlock' line.content
  rcases failure_of_readOne h with ⟨hscan, -⟩ | ⟨cause, rfl, hcause, -⟩
  · cases hscan.symm.trans houtcome
  · refine ⟨_, rfl, ⟨line, ?_, rfl⟩, hcause⟩
    exact List.mem_append_right _ List.mem_cons_self

/-- What is wrong with a text that has no extraction is a defect on one of its lines. -/
theorem isDefectOf_of_extract (hd : d.blockOpen ≠ [] ∨ d.blockClose ≠ [])
    (h : extract d source = .error failure) :
    ∃ defect, failure = .defect defect ∧ IsDefectOf (Line.split source) defect := by
  have hfails := h
  rcases bind_eq_error.1 h with h | ⟨⟨readings, p⟩, hreads, h⟩
  · exact isDefectOf_of_readLines hd h
  obtain ⟨after, hreads⟩ := readLines_eq_ok_iff.1 hreads
  rcases bind_eq_error.1 h with h | ⟨pending, hpending, -⟩
  · obtain ⟨defect, hfinish, rfl⟩ := mapError_eq_error.1 h
    obtain ⟨draft, below, hstack, rfl⟩ := Note.Pairing.finish_eq_error_iff.1 hfinish
    obtain ⟨opener, hopener, -, hopened⟩ := hreads.isWritten.drafts draft (by simp [hstack])
    refine ⟨_, rfl, ⟨opener.line, ?_, hopened⟩, Cause.noConfusion⟩
    rw [← hreads.map_line]
    exact List.mem_map_of_mem hopener
  · -- The notes are anchored, as nothing is left open.
    obtain ⟨stack, closed⟩ := p
    cases stack with
    | cons => cases hpending
    | nil =>
      obtain ⟨fates, -, -, hextract⟩ := extract_of_reads hreads
      rw [hextract] at hfails
      cases hfails

end Extraction

end Marginalia
