import Marginalia.Proofs.Extraction.Defect
import Marginalia.Proofs.Extraction.Shift
import Marginalia.Proofs.Note.Tracking

/-!
# The first defect of a text

The lines of a text are read one after the other, and the first one that does not fit ends
the reading. So a defect on a line is told as soon as the line is there, whatever comes
after it, and never because of what comes after it. That a note is never closed is told
only if all lines can be read, and of the last note that is left open.

* `extract_firstLines_eq_error_iff`: the first lines of a text have its defects on them,
  and no others;
* `isNeverClosed_iff`: the markers that are never closed have left their notes open;
* `extract_fails_fast`: which defect a text has.
-/

namespace Marginalia

/-- The defect is on a line that cannot be read, not in what the lines have left open. -/
def Defect.IsOfLine (defect : Defect) : Prop :=
  defect.cause.kind = .malformed ∨ defect.cause.kind = .mismatched

theorem Defect.isOfLine_iff {defect : Defect} :
    defect.IsOfLine ↔ defect.cause.kind ≠ .unterminated := by
  rw [IsOfLine]
  cases defect.cause.kind <;> decide

namespace Extraction

variable {d : Dialect} {s : Text} {inBlock after : Bool} {p p' q : Note.Pairing}
  {lines : List Line} {readings first : List Reading} {defect : Defect} {n : Nat}

/-! ## Defects on lines -/

/-- The text has a defect on one of its lines. -/
def HasLineDefect (d : Dialect) (s : Text) : Prop :=
  ∃ defect, extract d s = .error (.defect defect) ∧ defect.IsOfLine

/-- The text has a defect on a line up to the one of that number, and none on the lines
    before. -/
def IsDefective (d : Dialect) (s : Text) (n : Nat) : Prop :=
  HasLineDefect d (Line.firstLines (n + 1) s) ∧ ¬HasLineDefect d (Line.firstLines n s)

theorem of_readOne_eq_error {line : Line}
    (h : readOne d inBlock p line = .error (.defect defect)) :
    defect.line = line.number ∧ defect.IsOfLine := by
  rcases failure_of_readOne h with ⟨-, h⟩ | ⟨cause, h, -, hkind⟩
  · cases h
  · obtain rfl := Failure.defect.inj h
    exact ⟨rfl, Defect.isOfLine_iff.2 hkind⟩

theorem isOfLine_of_readLines (h : readLines d inBlock p lines = .error (.defect defect)) :
    defect.IsOfLine := by
  obtain ⟨_, line, _, _, _, _, -, -, h⟩ := readLines_eq_error_iff.1 h
  exact (of_readOne_eq_error h).2

/-- A text has the defect of a line that cannot be read or else of the note that is
    innermost at the end. -/
theorem extract_eq_error_iff : extract d s = .error (.defect defect) ↔
    readLines d false {} (Line.split s) = .error (.defect defect) ∨
      ∃ readings p draft below, readLines d false {} (Line.split s) = .ok (readings, p) ∧
        p.stack = draft :: below ∧ defect = ⟨.neverClosed draft.id, draft.opened⟩ := by
  rw [extract, bind_eq_error]
  refine or_congr_right ⟨?_, ?_⟩
  · rintro ⟨⟨readings, p⟩, hreads, h⟩
    rcases bind_eq_error.1 h with h | ⟨pending, -, h⟩
    · obtain ⟨defect', hfinish, heq⟩ := mapError_eq_error.1 h
      obtain rfl := Failure.defect.inj heq
      obtain ⟨draft, below, hstack, hdefect⟩ := Note.Pairing.finish_eq_error_iff.1 hfinish
      exact ⟨readings, p, draft, below, hreads, hstack, hdefect⟩
    · -- Notes that cannot be anchored are no defect of the text.
      rcases bind_eq_error.1 h with h | ⟨_, -, h⟩
      · obtain ⟨_, -, h⟩ := mapError_eq_error.1 h
        cases h
      · cases h
  · rintro ⟨readings, p, draft, below, hreads, hstack, hdefect⟩
    refine ⟨_, hreads, bind_eq_error.2 (.inl (mapError_eq_error.2 ⟨defect, ?_, rfl⟩))⟩
    exact Note.Pairing.finish_eq_error_iff.2 ⟨draft, below, hstack, hdefect⟩

theorem extract_eq_error_iff_readLines (h : defect.IsOfLine) :
    extract d s = .error (.defect defect) ↔
      readLines d false {} (Line.split s) = .error (.defect defect) := by
  rw [extract_eq_error_iff, or_iff_left_iff_imp]
  rintro ⟨_, _, draft, _, -, -, rfl⟩
  exact absurd rfl (Defect.isOfLine_iff.1 h)

/-- Lines that follow do not change what is wrong with the lines before. -/
theorem readLines_append_eq_error {failure : Failure}
    (h : readLines d inBlock p lines = .error failure) (more : List Line) :
    readLines d inBlock p (lines ++ more) = .error failure := by
  obtain ⟨before, line, rest, _, _, _, rfl, hbefore, h⟩ := readLines_eq_error_iff.1 h
  rw [List.append_assoc, List.cons_append]
  exact readLines_eq_error_iff.2 ⟨before, line, rest ++ more, _, _, _, rfl, hbefore, h⟩

/-- Of the lines of a text, the first ones have the defects that are on them. -/
theorem readLines_take_eq_error_iff :
    readLines d inBlock p ((Line.split s).take n) = .error (.defect defect) ↔
      readLines d inBlock p (Line.split s) = .error (.defect defect) ∧ defect.line < n := by
  constructor
  · intro h
    have hlines := readLines_append_eq_error h ((Line.split s).drop n)
    rw [List.take_append_drop] at hlines
    refine ⟨hlines, ?_⟩
    obtain ⟨before, line, rest, _, _, _, htake, -, h⟩ := readLines_eq_error_iff.1 h
    have hsplit : Line.split s = before ++ line :: (rest ++ (Line.split s).drop n) := by
      rw [← List.cons_append, ← List.append_assoc, ← htake, List.take_append_drop]
    have hlength := congrArg List.length htake
    rw [List.length_take, List.length_append, List.length_cons] at hlength
    rw [(of_readOne_eq_error h).1, Line.number_of_split_eq_append hsplit]
    omega
  · rintro ⟨h, hlt⟩
    obtain ⟨before, line, rest, readings, inBlock', p', hsplit, hbefore, h⟩ :=
      readLines_eq_error_iff.1 h
    rw [(of_readOne_eq_error h).1, Line.number_of_split_eq_append hsplit] at hlt
    obtain ⟨m, rfl⟩ := Nat.exists_eq_add_of_lt (Int.ofNat_lt.1 hlt)
    refine readLines_eq_error_iff.2
      ⟨before, line, rest.take m, readings, inBlock', p', ?_, hbefore, h⟩
    rw [hsplit, Nat.add_assoc, List.take_length_add_append, List.take_succ_cons]

/-- The first lines of a text have the defects of the text that are on them. -/
theorem extract_firstLines_eq_error_iff (h : defect.IsOfLine) :
    extract d (Line.firstLines n s) = .error (.defect defect) ↔
      extract d s = .error (.defect defect) ∧ defect.line < n := by
  rw [extract_eq_error_iff_readLines h, extract_eq_error_iff_readLines h, Line.split_firstLines]
  exact readLines_take_eq_error_iff

theorem hasLineDefect_firstLines_iff : HasLineDefect d (Line.firstLines n s) ↔
    ∃ defect, (extract d s = .error (.defect defect) ∧ defect.line < n) ∧ defect.IsOfLine :=
  exists_congr fun _ => and_congr_left extract_firstLines_eq_error_iff

/-- A defect is on the first line without which there is none. -/
theorem eq_error_and_line_eq_iff (h : defect.IsOfLine) :
    extract d s = .error (.defect defect) ∧ defect.line = n ↔
      extract d (Line.firstLines (n + 1) s) = .error (.defect defect) ∧
        ¬HasLineDefect d (Line.firstLines n s) := by
  rw [extract_firstLines_eq_error_iff h, hasLineDefect_firstLines_iff, and_assoc]
  refine and_congr_right fun hextract => ⟨fun hline => ⟨by omega, ?_⟩, fun ⟨hlt, hnone⟩ => ?_⟩
  · rintro ⟨other, ⟨hother, hlt⟩, -⟩
    obtain rfl := Failure.defect.inj (Except.error.inj (hextract.symm.trans hother))
    omega
  · have hge : ¬defect.line < n := fun hlt => hnone ⟨defect, ⟨hextract, hlt⟩, h⟩
    omega

/-- Complete lines have the same defect with any text after them. -/
theorem extract_append_eq_error (h : defect.IsOfLine) (hend : s.getLast? = some '\n')
    (hextract : extract d s = .error (.defect defect)) (v : Text) :
    extract d (s ++ v) = .error (.defect defect) := by
  rw [extract_eq_error_iff_readLines h] at hextract ⊢
  rw [Line.split_append (.inr hend)]
  exact readLines_append_eq_error hextract _

/-- If no line has a defect, the lines can be read. -/
theorem exists_reads_of_not_isDefective (hd : d.blockOpen ≠ [] ∨ d.blockClose ≠ [])
    (h : ∀ n, ¬IsDefective d s n) :
    ∃ readings p after, Reads d false {} (Line.split s) readings after p := by
  cases hlines : readLines d false {} (Line.split s) with
  | ok result =>
    obtain ⟨readings, p⟩ := result
    obtain ⟨after, hreads⟩ := readLines_eq_ok_iff.1 hlines
    exact ⟨readings, p, after, hreads⟩
  | error failure =>
    obtain ⟨defect, rfl, ⟨line, hline, hnumber⟩, -⟩ := isDefectOf_of_readLines hd hlines
    have hdefect := isOfLine_of_readLines hlines
    have hextract := (extract_eq_error_iff_readLines hdefect).2 hlines
    obtain ⟨hwith, hwithout⟩ := (eq_error_and_line_eq_iff hdefect).1 ⟨hextract, hnumber⟩
    exact absurd ⟨⟨defect, hwith, hdefect⟩, hwithout⟩ (h line.number)

/-! ## Markers that are never closed -/

/-- The line of that number opens a note, as is known once the lines up to it are read. -/
def IsOpener (d : Dialect) (s : Text) (n : Nat) : Prop :=
  ∃ readings p line id words,
    readLines d false {} ((Line.split s).take (n + 1)) = .ok (readings, p) ∧
      readings[n]? = some ⟨line, .opening id words⟩

/-- Some lines of the text close the note that was opened on the line of that number. -/
def IsClosed (d : Dialect) (s : Text) (n : Nat) : Prop :=
  ∃ m readings p, readLines d false {} ((Line.split s).take m) = .ok (readings, p) ∧
    ∃ block ∈ Note.blocksOf p.closed, block.opened = n

/-- The line of that number opens a note that no line closes. -/
def IsNeverClosed (d : Dialect) (s : Text) (n : Nat) : Prop :=
  IsOpener d s n ∧ ¬IsClosed d s n

/-- The first lines are read as in the text, and what they close stays closed. -/
theorem Reads.isPrefix_of_take (h : Reads d inBlock p lines readings after q)
    (htake : readLines d inBlock p (lines.take n) = .ok (first, p')) :
    first <+: readings ∧ p'.closed <+: q.closed := by
  rw [← List.take_append_drop n lines] at h
  obtain ⟨inBlock', p'', first', rest, rfl, hfirst, hrest⟩ := h.of_append
  have hsame := htake.symm.trans (readLines_eq_ok_iff.2 ⟨_, hfirst⟩)
  obtain ⟨rfl, rfl⟩ := Prod.mk.inj (Except.ok.inj hsame)
  exact ⟨List.prefix_append .., Note.Pairing.closed_isPrefix_of_feedAll hrest.run.feedAll⟩

theorem isOpener_iff (h : Reads d false {} (Line.split s) readings after p) :
    IsOpener d s n ↔ ∃ line id words, readings[n]? = some ⟨line, .opening id words⟩ := by
  constructor
  · rintro ⟨first, p', line, id, words, htake, hget⟩
    obtain ⟨hn, hget⟩ := List.getElem?_eq_some_iff.1 hget
    have hreading := List.prefix_iff_getElem?.1 (h.isPrefix_of_take htake).1 n hn
    exact ⟨line, id, words, hreading.trans (congrArg some hget)⟩
  · rintro ⟨line, id, words, hget⟩
    obtain ⟨inBlock', p', htake⟩ := h.take (n + 1)
    refine ⟨_, p', line, id, words, readLines_eq_ok_iff.2 ⟨inBlock', htake⟩, ?_⟩
    rwa [List.getElem?_take_of_lt (Nat.lt_succ_self n)]

theorem isClosed_iff (h : Reads d false {} (Line.split s) readings after p) :
    IsClosed d s n ↔ ∃ block ∈ Note.blocksOf p.closed, block.opened = n := by
  constructor
  · rintro ⟨m, first, p', htake, block, hblock, hopened⟩
    obtain ⟨hblock, hform⟩ := List.mem_filter.1 hblock
    have hmem := (h.isPrefix_of_take htake).2.subset hblock
    exact ⟨block, List.mem_filter.2 ⟨hmem, hform⟩, hopened⟩
  · rintro ⟨block, hblock, hopened⟩
    refine ⟨(Line.split s).length, readings, p, ?_, block, hblock, hopened⟩
    rw [List.take_length]
    exact readLines_eq_ok_iff.2 ⟨after, h⟩

theorem Reads.tracks (h : Reads d inBlock {} (Line.split s) readings after p) :
    Note.Pairing.Tracks (readings.map Note.Item.ofReading) p :=
  Note.Pairing.tracks_of_feedAll h.numbered.ordered.inOrder h.run.feedAll

/-- The markers that are never closed are those of the notes that are left open. -/
theorem isNeverClosed_iff (h : Reads d false {} (Line.split s) readings after p) :
    IsNeverClosed d s n ↔ ∃ draft ∈ p.stack, draft.opened = n := by
  rw [h.tracks.exists_opened_eq_iff h.numbered.ordered.inOrder, IsNeverClosed, isOpener_iff h,
    isClosed_iff h]
  refine and_congr ⟨?_, ?_⟩ (by push Not; rfl)
  · rintro ⟨line, id, words, hget⟩
    refine ⟨id, words, List.mem_map.2 ⟨_, List.mem_of_getElem? hget, ?_⟩⟩
    rw [Note.Item.ofReading, h.numbered n _ hget]
  · rintro ⟨id, words, hitem⟩
    obtain ⟨⟨line, role⟩, hr, hitem⟩ := List.mem_map.1 hitem
    obtain ⟨hline, rfl⟩ := Note.Item.mk.inj hitem
    have hget := h.numbered.getElem?_of_mem hr
    rw [Int.ofNat.inj hline] at hget
    exact ⟨line, id, words, hget⟩

/-! ## Which defect a text has -/

/-- A text has the defect of the first line that has one, or else of the last note that
    is never closed. -/
structure FailsFast (d : Dialect) (s : Text) : Prop where
  /-- A defect on one of some complete lines stays what it is, whatever text follows. -/
  stable : s.getLast? = some '\n' → ∀ defect : Defect, defect.IsOfLine →
    extract d s = .error (.defect defect) → ∀ v, extract d (s ++ v) = .error (.defect defect)
  /-- A defect is on a line if the lines up to that one have it, and those before have none. -/
  first : ∀ defect : Defect, defect.IsOfLine → ∀ n : Nat,
    (extract d s = .error (.defect defect) ∧ defect.line = n ↔
      extract d (Line.firstLines (n + 1) s) = .error (.defect defect) ∧
        ¬HasLineDefect d (Line.firstLines n s))
  /-- That a note is never closed is told if that is so and no line has a defect. -/
  unclosed : (∃ defect, extract d s = .error (.defect defect) ∧
      defect.cause.kind = .unterminated) ↔
    (∀ n, ¬IsDefective d s n) ∧ ∃ n, IsNeverClosed d s n
  /-- The last such note is told. -/
  last : ∀ defect, extract d s = .error (.defect defect) → defect.cause.kind = .unterminated →
    ∃ n : Nat, defect.line = n ∧ IsNeverClosed d s n ∧ ∀ m, IsNeverClosed d s m → m ≤ n
  /-- Whatever the limit to how deep searches are nested, the defects are the same. -/
  limited : ∀ limit defect, extract d s limit = .error (.defect defect) ↔
    extract d s = .error (.defect defect)

/-- If the lines can be read, none has a defect. -/
theorem not_isDefective_of_reads (h : Reads d false {} (Line.split s) readings after p) (n : Nat) :
    ¬IsDefective d s n := by
  rintro ⟨hdefect, -⟩
  obtain ⟨defect, ⟨hextract, -⟩, hdefect⟩ := hasLineDefect_firstLines_iff.1 hdefect
  cases (readLines_eq_ok_iff.2 ⟨after, h⟩).symm.trans
    ((extract_eq_error_iff_readLines hdefect).1 hextract)

/-- A text whose lines can be read has a defect if a note is left open. -/
theorem exists_unterminated_of_reads (h : Reads d false {} (Line.split s) readings after p)
    {draft : Note.Draft} (hdraft : draft ∈ p.stack) :
    ∃ defect, extract d s = .error (.defect defect) ∧ defect.cause.kind = .unterminated := by
  obtain ⟨top, below, hstack⟩ := List.exists_cons_of_ne_nil (List.ne_nil_of_mem hdraft)
  have hreads := readLines_eq_ok_iff.2 ⟨after, h⟩
  exact ⟨_, extract_eq_error_iff.2 (.inr ⟨readings, p, top, below, hreads, hstack, rfl⟩), rfl⟩

/-- If a note is told never to be closed, the lines can be read, and the note is the one
    opened last of those that are left open. -/
theorem exists_reads_of_unterminated (hextract : extract d s = .error (.defect defect))
    (hkind : defect.cause.kind = .unterminated) : ∃ readings p after,
      Reads d false {} (Line.split s) readings after p ∧ ∃ n : Nat, defect.line = n ∧
        IsNeverClosed d s n ∧ ∀ m, IsNeverClosed d s m → m ≤ n := by
  rcases extract_eq_error_iff.1 hextract with h | ⟨readings, p, draft, below, h, hstack, rfl⟩
  · exact absurd hkind (Defect.isOfLine_iff.1 (isOfLine_of_readLines h))
  obtain ⟨after, h⟩ := readLines_eq_ok_iff.1 h
  have hdraft : draft ∈ p.stack := by simp [hstack]
  obtain ⟨opener, -, -, hopened⟩ := h.isWritten.drafts draft hdraft
  refine ⟨readings, p, after, h, opener.line.number, hopened,
    (isNeverClosed_iff h).2 ⟨draft, hdraft, hopened⟩, fun m hm => ?_⟩
  -- The notes below it on the stack were opened before.
  obtain ⟨other, hother, hm⟩ := (isNeverClosed_iff h).1 hm
  have hordered := h.tracks.ordered
  rw [hstack] at hordered hother
  rcases List.mem_cons.1 hother with rfl | hother
  · omega
  · have := (List.pairwise_cons.1 hordered).1 other hother
    omega

/-- No text can hide, change or anticipate the first defect of the lines before it. -/
theorem extract_fails_fast (d : Dialect) (hd : d.blockOpen ≠ [] ∨ d.blockClose ≠ []) (s : Text) :
    FailsFast d s where
  stable hend _ hdefect hextract := extract_append_eq_error hdefect hend hextract
  first _ hdefect _ := eq_error_and_line_eq_iff hdefect
  unclosed := by
    constructor
    · rintro ⟨defect, hextract, hkind⟩
      obtain ⟨_, _, _, h, n, -, hn, -⟩ := exists_reads_of_unterminated hextract hkind
      exact ⟨not_isDefective_of_reads h, n, hn⟩
    · rintro ⟨hnone, n, hn⟩
      obtain ⟨readings, p, after, h⟩ := exists_reads_of_not_isDefective hd hnone
      obtain ⟨draft, hdraft, -⟩ := (isNeverClosed_iff h).1 hn
      exact exists_unterminated_of_reads h hdraft
  last _ hextract hkind := by
    obtain ⟨_, _, _, -, hlast⟩ := exists_reads_of_unterminated hextract hkind
    exact hlast
  limited _ _ := extract_eq_defect_iff

/-- A note that is never closed, then an id between blanks, which is what is told, and a
    closing marker for nothing. -/
def hiddenSource : Text := "x\n// @annotate A\n// @annotate (b) B\n// @end(c)\n".toList

theorem extract_fails_fast_hidden :
    (Dialect.standard.blockOpen ≠ [] ∨ Dialect.standard.blockClose ≠ []) ∧
      hiddenSource.getLast? = some '\n' ∧
      extract .standard hiddenSource = .error (.defect ⟨.detachedId, 2⟩) ∧
      FailsFast .standard hiddenSource :=
  have hd : Dialect.standard.blockOpen ≠ [] ∨ Dialect.standard.blockClose ≠ [] := by decide
  ⟨hd, by decide +kernel, by decide +kernel, extract_fails_fast .standard hd hiddenSource⟩

end Extraction

end Marginalia
