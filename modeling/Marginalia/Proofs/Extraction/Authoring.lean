import Mathlib.Data.List.Induction
import Marginalia.Proofs.Extraction.Following
import Marginalia.Proofs.Extraction.Stability

/-!
# The notes written into a text are extracted from it

A text that is its own extraction and has a line end on every line may be given
notes around its lines, in any number and however nested or overlapping, as long as
these lines are no comments on lines of their own and no marker gets into a comment
that goes on over lines (`IsAuthored`). Reading goes through the entries one after
the other (`Reaches`), each read as what was written.

* `reaches`: all entries can be read;
* `extract_authored`: the extraction has the text as its code and the notes on the
  lines they were written around.
-/

namespace Marginalia

/-- Whether a line of a text is a comment on a line of its own. -/
def isCommentLine (lines : List Line) (n : Nat) : Bool :=
  (do
    let line ← lines[n]?
    let inBlock ← Scan.stateAfter .standard false (lines.take n)
    let outcome ← Scan.findComment .standard inBlock line.content
    let start ← outcome.comment
    return Text.isBlankText (line.content.take start)) == some true

/-- The notes are written around lines of the text of which none is a comment, and
    none of their markers into a comment that goes on over lines. -/
structure IsAuthored (source : Text) (marks : List Mark) (entries : List Entry) : Prop where
  /-- Every line has a line end. -/
  ended : source = [] ∨ source.getLast? = some '\n'
  weaving : IsWeaving (Line.split source) marks entries
  ids : (marks.map (·.id)).Nodup
  valid : ∀ mark ∈ marks, mark.IsValid
  /-- No marker gets into a block comment. -/
  first : ∀ mark ∈ marks,
    Scan.stateAfter .standard false ((Line.split source).take mark.first) = some false
  last : ∀ mark ∈ marks,
    Scan.stateAfter .standard false ((Line.split source).take (mark.last + 1)) = some false
  /-- No line of a note is a comment on a line of its own. -/
  code : ∀ mark ∈ marks, ∀ n, mark.first ≤ n → n ≤ mark.last →
    ¬isCommentLine (Line.split source) n

namespace Extraction

variable {source : Text} {marks : List Mark} {entries before rest : List Entry}

/-- A line of a text that is its own extraction stays a line of code where it is no
    comment on a line of its own, or no note is open. -/
theorem exists_isRole_of_plain {after : Bool} {line : Line} {lines lines' : List Line}
    (h : Reads .standard false {} (lines ++ line :: lines')
      ((lines ++ line :: lines').map Reading.ofPlain) after {}) :
    ∃ inBlock outcome, Scan.stateAfter .standard false lines = some inBlock ∧
      Scan.findComment .standard inBlock line.content = some outcome ∧
      Scan.stateAfter .standard false (lines ++ [line]) = some outcome.inBlock ∧
      ∀ noteOpen : Bool, (noteOpen → ¬isCommentLine (lines ++ line :: lines') lines.length) →
        Role.IsRole .standard noteOpen line.content outcome.comment (.plain line.content none) := by
  obtain ⟨inBlock, p', readings₁, readings₂, hreadings, h₁, h₂⟩ := h.of_append
  cases h₂ with
  | @cons _ _ _ _ _ _ _ outcome role readings hscan hrole hstep hrest =>
    have hlength : (lines.map Reading.ofPlain).length = readings₁.length := by
      rw [List.length_map, ← h₁.map_line, List.length_map]
    rw [List.map_append, List.map_cons] at hreadings
    obtain ⟨hreading, _⟩ := List.cons.inj (List.append_inj hreadings hlength).2
    obtain rfl : Role.plain line.content none = role := (Reading.mk.inj hreading).2
    have hstate := h₁.stateAfter_eq
    refine ⟨inBlock, outcome, hstate, hscan, (h₁.append (.cons hscan hrole hstep .nil)).stateAfter_eq,
      fun noteOpen hcode => hrole.plain_self fun hopen start hstart hblank => hcode hopen ?_⟩
    obtain ⟨comment, after⟩ := outcome
    obtain rfl : comment = some start := hstart
    have hget : (lines ++ line :: lines')[lines.length]? = some line := by
      rw [List.getElem?_append_right (Nat.le_refl _), Nat.sub_self]
      rfl
    simp only [isCommentLine, hget, List.take_left, hstate, Option.bind_eq_bind, Option.bind_some,
      hscan, hblank]
    rfl

/-- The lines of some first entries can be read, and what is open and closed after
    them follows from the entries. -/
def Reaches (before : List Entry) : Prop :=
  ∃ readings inBlock p drafts notes,
    Reads .standard false {} (Line.numbered (before.map (·.piece))) readings inBlock p ∧
    Scan.stateAfter .standard false (linesOf before) = some inBlock ∧
    Follows before readings p drafts notes

theorem Reaches.nil : Reaches [] := ⟨[], false, {}, [], [], .nil, rfl, .nil⟩

/-- Reading one more entry, given how its line is read. -/
theorem Reads.concat {before : List Entry} {entry : Entry} {readings : List Reading}
    {inBlock inBlock' : Bool} {p q : Note.Pairing} {role : Role}
    (h : Reads .standard false {} (Line.numbered (before.map (·.piece))) readings inBlock p)
    (hentry : Reads .standard inBlock p [⟨readings.length, entry.piece.1, entry.piece.2⟩]
      [⟨⟨readings.length, entry.piece.1, entry.piece.2⟩, role⟩] inBlock' q) :
    Reads .standard false {} (Line.numbered ((before ++ [entry]).map (·.piece)))
      (readings ++ [⟨⟨readings.length, entry.piece.1, entry.piece.2⟩, role⟩]) inBlock' q := by
  have hlength : readings.length = (before.map (·.piece)).length := by
    have := congrArg List.length h.map_line
    rwa [List.length_map, Line.numbered, List.length_mapIdx] at this
  rw [List.map_append, List.map_singleton, Line.numbered_concat, ← hlength]
  exact h.append hentry

theorem Reaches.line {after : Bool} {line : Line} (h : Reaches before)
    (ha : IsAuthored source marks (before ++ .line line :: rest))
    (hplain : Reads .standard false {} (Line.split source)
      ((Line.split source).map Reading.ofPlain) after {}) : Reaches (before ++ [.line line]) := by
  obtain ⟨readings, inBlock, p, drafts, notes, hreads, hstate, hfollows⟩ := h
  have hids := ha.weaving.nodup_ids ha.ids
  have hsplit : Line.split source = linesOf before ++ line :: linesOf rest := by
    rw [← ha.weaving.lines_eq, linesOf_append]
    rfl
  rw [hsplit] at hplain
  obtain ⟨inBlock', outcome, hstate', hscan, hafter, hrole⟩ := exists_isRole_of_plain hplain
  obtain rfl := Option.some.inj (hstate.symm.trans hstate')
  -- Where a note is open the line is one of its lines, and so no comment.
  have hcode : p.isOpen → ¬isCommentLine (linesOf before ++ line :: linesOf rest)
      (linesOf before).length := by
    intro hopen
    obtain ⟨x, hx⟩ := hfollows.exists_mem_drafts hopen
    have hopened := hfollows.mem_opened hx
    have hmark := ha.weaving.mem_of_mem_opened hopened
    rw [← hsplit]
    exact ha.code x.1 hmark _ (ha.weaving.first_le hopened)
      (ha.weaving.le_last hmark (hfollows.not_mem_closed hids hx))
  refine ⟨_, outcome.inBlock, p, drafts, notes,
    hreads.concat (.cons hscan (hrole p.isOpen hcode) .plain .nil), ?_, hfollows.line rfl⟩
  rw [linesOf_append]
  exact hafter

theorem Reaches.opening {mark : Mark} (h : Reaches before)
    (ha : IsAuthored source marks (before ++ .opening mark :: rest)) :
    Reaches (before ++ [.opening mark]) := by
  obtain ⟨readings, inBlock, p, drafts, notes, hreads, hstate, hfollows⟩ := h
  have hmem := ha.weaving.mem_of_opening
  have hvalid := ha.valid mark hmem
  have hfirst := ha.weaving.first_eq
  obtain rfl : inBlock = false := by
    have hstate' := ha.first mark hmem
    rw [← hfirst, ha.weaving.take_lines, hstate] at hstate'
    exact Option.some.inj hstate'
  -- The id is not that of an open note, as these were all opened before.
  have hfree : ∀ name, some mark.id = some name → ∀ draft ∈ p.stack, draft.id ≠ some name := by
    rintro _ ⟨rfl⟩ draft hdraft hid
    rw [hfollows.stack] at hdraft
    obtain ⟨x, hx, rfl⟩ := List.mem_map.1 hdraft
    refine ha.weaving.id_not_mem_opened ha.ids ?_
    rw [← Option.some.inj ((hfollows.isDraft x hx).id.symm.trans hid)]
    exact List.mem_map_of_mem (hfollows.mem_opened hx)
  refine ⟨_, false, _, _, notes, hreads.concat (.cons (Scan.findComment_openingMarker _ _)
    (Role.isRole_openingMarker hvalid.id hvalid.words p.isOpen) (.opening hfree) .nil), ?_,
    hfollows.opening hfirst rfl rfl rfl⟩
  rw [linesOf_concat_of_none rfl, hstate]

theorem Reaches.closing {mark : Mark} (h : Reaches before)
    (ha : IsAuthored source marks (before ++ .closing mark :: rest)) :
    Reaches (before ++ [.closing mark]) := by
  obtain ⟨readings, inBlock, ⟨stack, closed⟩, drafts, notes, hreads, hstate, hfollows⟩ := h
  have hids := ha.weaving.nodup_ids ha.ids
  have hmem := ha.weaving.mem_of_closing
  have hvalid := ha.valid mark hmem
  have hlast := ha.weaving.last_eq
  obtain rfl : inBlock = false := by
    have hstate' := ha.last mark hmem
    rw [← hlast, ha.weaving.take_lines, hstate] at hstate'
    exact Option.some.inj hstate'
  -- The note is open, as it was opened before and is not closed.
  have hdraft : mark ∈ drafts.map (·.1) := by
    have hopened := hfollows.opened.mem_iff.2 (ha.weaving.mem_opened hvalid.first_le_last)
    exact (List.mem_append.1 hopened).resolve_right (ha.weaving.not_mem_closed ha.ids)
  obtain ⟨⟨mark', draft⟩, hx, rfl⟩ := List.mem_map.1 hdraft
  obtain ⟨above, below, rfl⟩ := List.append_of_mem hx
  have hcloses := hfollows.closes hids
  obtain rfl : stack = above.map (·.2) ++ draft :: below.map (·.2) := by
    have hstack := hfollows.stack
    rwa [List.map_append] at hstack
  refine ⟨_, false, _, above ++ below, notes ++ [(mark', draft.close readings.length)],
    hreads.concat (.cons (Scan.findComment_closingMarker _)
      (Role.isRole_closingMarker hvalid.id _) (.closing hcloses) .nil), ?_, ?_⟩
  · rw [linesOf_concat_of_none rfl, hstate]
  · rw [← List.map_append]
    exact hfollows.closing hvalid.words hlast rfl rfl

/-- Every entry can be read after those before it. -/
theorem reaches {after : Bool} (ha : IsAuthored source marks (before ++ rest))
    (hplain : Reads .standard false {} (Line.split source)
      ((Line.split source).map Reading.ofPlain) after {}) : Reaches before := by
  induction before using List.reverseRecOn generalizing rest with
  | nil => exact .nil
  | append_singleton before entry ih =>
    rw [List.append_assoc, List.singleton_append] at ha
    have h := ih ha
    cases entry with
    | line => exact h.line ha hplain
    | opening => exact h.opening ha
    | closing => exact h.closing ha

/-- The text with the notes has the entries as its lines. -/
theorem split_textOf (ha : IsAuthored source marks entries) :
    Line.split (textOf entries) = Line.numbered (entries.map (·.piece)) := by
  refine Line.split_joinPieces (Line.areLines_of_ended fun piece hpiece => ?_)
  obtain ⟨entry, hentry, rfl⟩ := List.mem_map.1 hpiece
  obtain ⟨before, rest, rfl⟩ := List.append_of_mem hentry
  cases entry with
  | line line =>
    refine Line.ended_of_mem_pieces ha.ended ?_
    rw [← Line.map_piece_split, ← ha.weaving.lines_eq, linesOf_append]
    exact List.mem_map_of_mem (List.mem_append_right _ List.mem_cons_self)
  | opening mark =>
    have hvalid := ha.valid mark ha.weaving.mem_of_opening
    exact Role.ended_openingMarker hvalid.id hvalid.words hvalid.newline
  | closing mark =>
    exact Role.ended_closingMarker (ha.valid mark ha.weaving.mem_of_closing).id

/-- If every note is anchored, there is one for each mark, and none is dropped. -/
theorem forall₂_becomes {fates : List Note.Fate} {pairs : List (Mark × Note.Pending)}
    (hmap : fates.map (·.pending) = pairs.map (·.2))
    (h : ∀ fate ∈ fates, ∀ x ∈ pairs, fate.pending = x.2 →
      ∃ note, fate.note = some note ∧ x.1.Becomes note) :
    List.Forall₂ Mark.Becomes (pairs.map (·.1)) (fates.filterMap (·.note)) ∧
      fates.filterMap (·.orphan?) = [] := by
  induction fates generalizing pairs with
  | nil =>
    obtain rfl := List.map_eq_nil_iff.1 hmap.symm
    exact ⟨.nil, rfl⟩
  | cons fate fates ih =>
    obtain ⟨x, pairs, rfl, hx, hrest⟩ := List.map_eq_cons_iff.1 hmap.symm
    obtain ⟨note, hnote, hbecomes⟩ := h fate List.mem_cons_self x List.mem_cons_self hx.symm
    obtain ⟨hnotes, horphans⟩ := ih hrest.symm fun fate hfate x hx =>
      h fate (List.mem_cons_of_mem _ hfate) x (List.mem_cons_of_mem _ hx)
    have horphan : fate.orphan? = none := by rw [Note.Fate.orphan?, hnote]; rfl
    rw [List.filterMap_cons, List.filterMap_cons, hnote, horphan]
    exact ⟨.cons hbecomes hnotes, horphans⟩

/-- Notes written around lines of a text are extracted as they were written, in the
    order of their closing markers and whatever the limit, and the text is displayed as it
    was. -/
theorem extract_authored {orphans : List Orphan} {limit : Option Nat}
    (h : extract .standard source limit = .ok ⟨source, [], orphans⟩)
    (ha : IsAuthored source marks entries) :
    ∃ notes, (∀ limit, extract .standard (textOf entries) limit = .ok ⟨source, notes, []⟩) ∧
      List.Forall₂ Mark.Becomes (closedIn entries) notes := by
  -- Every line of the text is read as code, since the text is its own displayed code.
  obtain ⟨a, _⟩ := exists_account h
  obtain ⟨after, hsource⟩ := a.exists_reads
  have hplain := hsource.plain a.map_piece_split_code
  rw [← List.append_nil entries] at ha
  obtain ⟨readings, inBlock, ⟨stack, closed⟩, drafts, pairs, hreads, _, hfollows⟩ :=
    reaches ha hplain
  rw [List.append_nil] at ha
  -- In the end as many notes are closed as were opened.
  obtain rfl : drafts = [] := by
    have hperm := hfollows.opened.trans (ha.weaving.opened.trans ha.weaving.closed.symm)
    have hlength := hperm.length_eq
    rw [List.length_append, List.length_map] at hlength
    exact List.length_eq_zero_iff.1 (by omega)
  obtain rfl : stack = [] := hfollows.stack
  obtain rfl : closed = pairs.map (·.2) := hfollows.notes_eq
  rw [← split_textOf ha] at hreads
  obtain ⟨fates, hmap, hsettled, hextract⟩ := extract_of_reads hreads
  have hcode : (Display.ofReadings readings).code = source := by
    rw [Display.code_ofReadings, hfollows.displayed, ha.weaving.lines_eq, ← Line.join_eq_joinPieces,
      Line.join_split]
  have hmarks : ∀ x ∈ pairs, x.1 ∈ marks := fun x hx =>
    ha.weaving.closed.mem_iff.1 (hfollows.closed ▸ List.mem_map_of_mem hx)
  obtain ⟨hnotes, horphans⟩ := forall₂_becomes hmap fun fate hfate x hx hpending => by
    obtain ⟨found, hfound⟩ := hsettled fate hfate
    have hnote := hfollows.isNote x hx
    rw [← hpending] at hnote
    have hwritten := hreads.isWritten.closed fate.pending
      (by rw [hpending]; exact List.mem_map_of_mem hx)
    exact hnote.exists_note (ha.valid x.1 (hmarks x hx)).first_le_last hfound
      (hwritten.isPlaced hreads.numbered)
  refine ⟨_, fun limit => ?_, hfollows.closed ▸ hnotes⟩
  rw [extract_of_reads_of_not_isBeyond hreads limit, hextract, hcode, horphans]
  -- Each note is around lines of the text, so none looks for those of another.
  have hplaced := fun note hnote => (hreads.isWritten.closed note hnote).isPlaced hreads.numbered
  rintro _ hnote
  obtain ⟨x, hx, rfl⟩ := List.mem_map.1 hnote
  obtain ⟨line, hline⟩ :=
    (hfollows.isNote x hx).exists_encloses (ha.valid x.1 (hmarks x hx)).first_le_last
  exact Note.Pending.not_isBeyond_of_encloses
    (fun block hblock => hplaced block (List.mem_of_mem_filter hblock)) (hplaced _ hnote) hline

/-- Two notes on three lines that have the middle one in common. -/
def crossingMarks : List Mark :=
  [⟨"x".toList, "One".toList, 0, 1⟩, ⟨"y".toList, "Two".toList, 1, 2⟩]

def crossingEntries : List Entry :=
  [.opening ⟨"x".toList, "One".toList, 0, 1⟩, .line ⟨0, "a".toList, "\n".toList⟩,
    .opening ⟨"y".toList, "Two".toList, 1, 2⟩, .line ⟨1, "b".toList, "\n".toList⟩,
    .closing ⟨"x".toList, "One".toList, 0, 1⟩, .line ⟨2, "c".toList, "\n".toList⟩,
    .closing ⟨"y".toList, "Two".toList, 1, 2⟩]

theorem isAuthored_crossing : IsAuthored "a\nb\nc\n".toList crossingMarks crossingEntries where
  ended := .inr (by decide +kernel)
  weaving := ⟨by decide +kernel, by decide +kernel, by decide +kernel, by decide +kernel⟩
  ids := by decide +kernel
  valid := by
    intro mark hmark
    rcases List.mem_pair.1 hmark with rfl | rfl
    · exact ⟨by decide +kernel, by decide +kernel, by decide +kernel, by decide⟩
    · exact ⟨by decide +kernel, by decide +kernel, by decide +kernel, by decide⟩
  first := by decide +kernel
  last := by decide +kernel
  code := by
    have hcode : ∀ n < 3, ¬isCommentLine (Line.split "a\nb\nc\n".toList) n := by decide +kernel
    have hlast : ∀ mark ∈ crossingMarks, mark.last < 3 := by decide +kernel
    exact fun mark hmark n _ hle => hcode n (Nat.lt_of_le_of_lt hle (hlast mark hmark))

theorem extract_authored_crossing : ∃ notes,
    (∀ limit, extract .standard (textOf crossingEntries) limit =
      .ok ⟨"a\nb\nc\n".toList, notes, []⟩) ∧
      List.Forall₂ Mark.Becomes (closedIn crossingEntries) notes := by
  have h : extract .standard "a\nb\nc\n".toList = .ok ⟨"a\nb\nc\n".toList, [], []⟩ :=
    toOption_eq_some.1 (by decide +kernel)
  exact extract_authored h isAuthored_crossing

end Extraction

end Marginalia
