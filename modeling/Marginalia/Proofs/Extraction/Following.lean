import Marginalia.Proofs.Extraction.Account
import Marginalia.Proofs.Extraction.Weaving
import Mathlib.Tactic.ByContra

/-!
# Notes between the entries of a text

While a text is read into which notes are written, the open notes are those that
were opened and not yet closed, and the closed notes are those that were closed,
in that order (`Follows`). Each of the three kinds of entries keeps this, so that
a note that is closed was opened where its lines start and closed where they end
(`Mark.IsNote`).

* `Follows.line`, `Follows.opening`, `Follows.closing`: what an entry keeps;
* `Follows.closes`: a closing marker closes the note it was written for;
* `Mark.IsNote.exists_note`: such a note is extracted as it was written.
-/

namespace Marginalia

theorem Note.word_nil {words : Text} (h : Text.strip words = words) : Note.word words [] = words := by
  have hbody : Note.wordBody [] = [] := by decide
  rw [Note.word, hbody, h]
  cases words with
  | nil => rfl
  | cons => simp [Text.joinWith]

namespace Mark

/-- The draft of a note that was opened before its first line. -/
structure IsDraft (readings : List Reading) (mark : Mark) (draft : Note.Draft) : Prop where
  id : draft.id = some mark.id
  words : draft.words = mark.words
  body : draft.body = []
  opened : ∃ opened : Nat, draft.opened = opened ∧ opened < readings.length ∧
    Display.shownBefore readings (opened + 1) = mark.first

/-- The pending note that was opened before its first line and closed after its
    last. -/
structure IsNote (readings : List Reading) (mark : Mark) (note : Note.Pending) : Prop where
  form : note.form = .block
  id : note.id = some mark.id
  text : note.text = mark.words
  lines : ∃ opened closed : Nat, note.opened = opened ∧ note.closed = closed ∧
    opened < readings.length ∧ closed < readings.length ∧
    Display.shownBefore readings (opened + 1) = mark.first ∧
    Display.shownBefore readings closed = mark.last + 1

variable {readings : List Reading} {mark : Mark}

theorem IsDraft.mono {draft : Note.Draft} (h : IsDraft readings mark draft) (more : List Reading) :
    IsDraft (readings ++ more) mark draft := by
  obtain ⟨opened, ho, hlt, hfirst⟩ := h.opened
  refine ⟨h.id, h.words, h.body, opened, ho, ?_, ?_⟩
  · rw [List.length_append]
    omega
  · rw [Display.shownBefore_append more hlt, hfirst]

theorem IsNote.mono {note : Note.Pending} (h : IsNote readings mark note) (more : List Reading) :
    IsNote (readings ++ more) mark note := by
  obtain ⟨opened, closed, ho, hc, hlo, hlc, hfirst, hlast⟩ := h.lines
  refine ⟨h.form, h.id, h.text, opened, closed, ho, hc, ?_, ?_, ?_, ?_⟩
  · rw [List.length_append]
    omega
  · rw [List.length_append]
    omega
  · rw [Display.shownBefore_append more hlo, hfirst]
  · rw [Display.shownBefore_append more (Nat.le_of_lt hlc), hlast]

end Mark

/-- What is open and closed after some entries: the drafts of the notes that are
    opened and not closed, and the notes that are closed. -/
structure Follows (before : List Entry) (readings : List Reading) (p : Note.Pairing)
    (drafts : List (Mark × Note.Draft)) (notes : List (Mark × Note.Pending)) : Prop where
  /-- The lines of the text are displayed, and no others. -/
  displayed : Display.displayed readings = (linesOf before).map Line.piece
  stack : p.stack = drafts.map (·.2)
  notes_eq : p.closed = notes.map (·.2)
  closed : notes.map (·.1) = closedIn before
  /-- A note that is opened is open or closed. -/
  opened : (drafts.map (·.1) ++ closedIn before).Perm (openedIn before)
  isDraft : ∀ x ∈ drafts, x.1.IsDraft readings x.2
  isNote : ∀ x ∈ notes, x.1.IsNote readings x.2

/-- The note that a written note is extracted as. -/
structure Mark.Becomes (mark : Mark) (note : Note) : Prop where
  first : note.first = mark.first
  last : note.last = mark.last
  id : note.id = some mark.id
  text : note.text = mark.words

/-- As more lines are displayed before the end of a written note than before its start,
    one is displayed in it. -/
theorem Mark.IsNote.exists_encloses {readings : List Reading} {mark : Mark} {note : Note.Pending}
    (h : mark.IsNote readings note) (hle : mark.first ≤ mark.last) :
    ∃ line, note.Encloses (rolesOf readings) line := by
  obtain ⟨opened, closed, ho, hc, _, _, hfirst, hlast⟩ := h.lines
  have hlt : opened + 1 ≤ closed := by
    by_contra hlt
    have := Display.shownBefore_mono readings (Nat.le_of_not_le hlt)
    omega
  by_contra hnone
  have heq := Display.shownBefore_eq_of_forall hlt fun n reading hlo hhi hn hk =>
    hnone ⟨n, by omega, by omega, lineIs_rolesOf.2 ⟨n, reading, rfl, hn, hk⟩⟩
  omega

/-- A note that was opened before its first line and closed after its last is on
    the lines in between. -/
theorem Mark.IsNote.exists_note {readings : List Reading} {blocks : List Note.Pending} {mark : Mark}
    {fate : Note.Fate} {found : Option Note.Span} (h : mark.IsNote readings fate.pending)
    (hle : mark.first ≤ mark.last) (hsettled : fate.IsSettled readings blocks found)
    (hplaced : fate.pending.IsPlaced (rolesOf readings)) :
    ∃ note, fate.note = some note ∧ mark.Becomes note := by
  obtain ⟨opened, closed, ho, hc, _, _, hfirst, hlast⟩ := h.lines
  obtain ⟨line, hline⟩ := h.exists_encloses hle
  obtain ⟨span, rfl, hfilled⟩ := hsettled.isOn.of_encloses hplaced hline
  obtain ⟨hf, hl⟩ := hfilled.on_eq ho hc
  exact ⟨_, hsettled.note_eq, by rw [hf, hfirst], by omega, h.id, h.text⟩

namespace Follows

variable {before : List Entry} {readings : List Reading} {p : Note.Pairing}
  {drafts above below : List (Mark × Note.Draft)} {notes : List (Mark × Note.Pending)}
  {reading : Reading} {mark : Mark} {draft : Note.Draft}

theorem shownBefore_length (h : Follows before readings p drafts notes) :
    Display.shownBefore readings readings.length = (linesOf before).length := by
  rw [Display.shownBefore_length, h.displayed, List.length_map]

theorem nil : Follows [] [] {} [] [] :=
  ⟨rfl, rfl, rfl, rfl, .refl _, by simp, by simp⟩

/-- A line of the text changes nothing but what is displayed. -/
theorem line (h : Follows before readings p drafts notes) {line : Line}
    (hpiece : Display.shownPiece? reading = some line.piece) :
    Follows (before ++ [.line line]) (readings ++ [reading]) p drafts notes := by
  refine ⟨?_, h.stack, h.notes_eq, ?_, ?_, fun x hx => (h.isDraft x hx).mono _,
    fun x hx => (h.isNote x hx).mono _⟩
  · rw [Display.displayed_append, h.displayed, linesOf_append, List.map_append, Display.displayed,
      List.filterMap_cons, hpiece]
    rfl
  · rw [h.closed, closedIn_concat_of_none rfl]
  · rw [closedIn_concat_of_none rfl, openedIn_concat_of_none rfl]
    exact h.opened

/-- A marker that opens a note adds its draft. -/
theorem opening (h : Follows before readings p drafts notes)
    (hfirst : (linesOf before).length = mark.first) (hshown : reading.role.shown? = none)
    (hnumber : reading.line.number = readings.length)
    (hdraft : draft = ⟨some mark.id, reading.line.number, p.depth, mark.words, []⟩) :
    Follows (before ++ [.opening mark]) (readings ++ [reading])
      ⟨draft :: p.stack, p.closed⟩ ((mark, draft) :: drafts) notes := by
  have hclosed : closedIn (before ++ [.opening mark]) = closedIn before :=
    closedIn_concat_of_none rfl
  have hdisplayed := Display.displayed_concat_of_none readings hshown
  refine ⟨?_, by rw [h.stack]; rfl, h.notes_eq, by rw [h.closed, hclosed], ?_,
    List.forall_mem_cons.2 ⟨?_, fun x hx => (h.isDraft x hx).mono _⟩,
    fun x hx => (h.isNote x hx).mono _⟩
  · rw [hdisplayed, linesOf_concat_of_none rfl, h.displayed]
  · rw [hclosed, openedIn_append]
    exact (h.opened.cons mark).trans (List.perm_append_singleton _ _).symm
  · subst hdraft
    refine ⟨rfl, rfl, rfl, readings.length, by rw [hnumber], by simp, ?_⟩
    -- As many lines are displayed before the marker as after it.
    have hlength : readings.length + 1 = (readings ++ [reading]).length := by simp
    rw [hlength, Display.shownBefore_length, hdisplayed, h.displayed, List.length_map, hfirst]

/-- A marker that closes a note takes its draft from among the others. -/
theorem closing (h : Follows before readings p (above ++ (mark, draft) :: below) notes)
    (hwords : Text.strip mark.words = mark.words)
    (hlast : (linesOf before).length = mark.last + 1) (hshown : reading.role.shown? = none)
    (hnumber : reading.line.number = readings.length) :
    Follows (before ++ [.closing mark]) (readings ++ [reading])
      ⟨(above ++ below).map (·.2), p.closed ++ [draft.close reading.line.number]⟩ (above ++ below)
      (notes ++ [(mark, draft.close reading.line.number)]) := by
  have hopened : openedIn (before ++ [.closing mark]) = openedIn before :=
    openedIn_concat_of_none rfl
  have hdisplayed := Display.displayed_concat_of_none readings hshown
  have hdraft := h.isDraft (mark, draft) (by simp)
  obtain ⟨opened, ho, hlt, hfirst⟩ := hdraft.opened
  refine ⟨by rw [hdisplayed, linesOf_concat_of_none rfl, h.displayed], rfl, ?_, ?_, ?_, fun x hx => ?_,
    List.forall_mem_append.2 ⟨fun x hx => (h.isNote x hx).mono _, List.forall_mem_singleton.2 ?_⟩⟩
  · change p.closed ++ [_] = _
    rw [h.notes_eq, List.map_append]
    rfl
  · rw [List.map_append, h.closed, closedIn_append]
    rfl
  · -- The draft leaves its place among the open notes, and its note is closed.
    have hmiddle : ((above ++ (mark, draft) :: below).map (·.1)).Perm
        (mark :: (above ++ below).map (·.1)) := List.perm_middle.map _
    rw [hopened, closedIn_append, ← List.append_assoc]
    exact ((List.perm_append_singleton _ _).trans (hmiddle.append_right _).symm).trans h.opened
  · refine (h.isDraft x ?_).mono _
    rcases List.mem_append.1 hx with hx | hx
    · exact List.mem_append_left _ hx
    · exact List.mem_append_right _ (List.mem_cons_of_mem _ hx)
  · refine ⟨rfl, hdraft.id, ?_, opened, readings.length, ho, by rw [← hnumber]; rfl, ?_, by simp,
      ?_, ?_⟩
    · change Note.word draft.words draft.body = mark.words
      rw [hdraft.words, hdraft.body, Note.word_nil hwords]
    · rw [List.length_append]
      omega
    · rw [Display.shownBefore_append _ hlt, hfirst]
    · rw [Display.shownBefore_append _ (Nat.le_refl _), h.shownBefore_length, hlast]

/-- The notes that are open are not closed, and have different ids. -/
theorem nodup_ids (h : Follows before readings p drafts notes)
    (hids : ((openedIn before).map (·.id)).Nodup) :
    ((drafts.map (·.1) ++ closedIn before).map (·.id)).Nodup :=
  (h.opened.map _).nodup_iff.2 hids

/-- If a note is open, it has a draft. -/
theorem exists_mem_drafts (h : Follows before readings p drafts notes) (hopen : p.isOpen) :
    ∃ x, x ∈ drafts := by
  rw [Note.Pairing.isOpen, h.stack] at hopen
  cases drafts with
  | nil => cases hopen
  | cons x drafts => exact ⟨x, List.mem_cons_self⟩

theorem mem_opened (h : Follows before readings p drafts notes) {x : Mark × Note.Draft}
    (hx : x ∈ drafts) : x.1 ∈ openedIn before :=
  h.opened.mem_iff.1 (List.mem_append_left _ (List.mem_map_of_mem hx))

theorem not_mem_closed (h : Follows before readings p drafts notes)
    (hids : ((openedIn before).map (·.id)).Nodup) {x : Mark × Note.Draft} (hx : x ∈ drafts) :
    x.1 ∉ closedIn before := by
  have hnodup := h.nodup_ids hids
  rw [List.map_append] at hnodup
  intro hclosed
  exact (List.nodup_append.1 hnodup).2.2 _ (List.mem_map_of_mem (List.mem_map_of_mem hx)) _
    (List.mem_map_of_mem hclosed) rfl

/-- The id on a closing marker is that of a single open note. -/
theorem closes (h : Follows before readings p (above ++ (mark, draft) :: below) notes)
    (hids : ((openedIn before).map (·.id)).Nodup) :
    Note.Pairing.Closes (some mark.id) (above.map (·.2)) draft := by
  -- A draft above it with its id would be the draft of another note with that id.
  refine ⟨(h.isDraft (mark, draft) (by simp)).id, fun other hother hid => ?_⟩
  obtain ⟨x, hx, rfl⟩ := List.mem_map.1 hother
  have hx' := (h.isDraft x (List.mem_append_left _ hx)).id
  have hnodup := h.nodup_ids hids
  rw [List.map_append, List.map_append, List.map_append] at hnodup
  have habove := (List.nodup_append.1 (List.nodup_append.1 hnodup).1).2.2
  exact habove _ (List.mem_map_of_mem (List.mem_map_of_mem hx)) _ List.mem_cons_self
    (Option.some.inj (hx'.symm.trans hid))

end Follows

end Marginalia
