import Marginalia.Note.Wording
import Marginalia.Proofs.Text.Basic
import Marginalia.Proofs.Text.Dedent
import Marginalia.Proofs.Text.Pieces

/-!
# The lines of a note

The text of a note is made of lines: the words on its marker, and the dedented lines of its
body without the empty ones at the ends. These lines have no margin and no blanks to strip,
so a body of them makes the same text again.

* `word_eq`: the lines of a note;
* `isFlush_linesOf`: they have no margin;
* `notes_are_normal`: the text of a note, in plain terms, and that it is stable.
-/

namespace Marginalia.Note

open Text

variable {words : Text} {body lines kept : List Text}

/-! ## Lines without the empty ones at their ends -/

/-- What is left of lines without the empty ones at their ends. -/
def IsTrimmed (lines kept : List Text) : Prop := ∃ before after, lines = before ++ kept ++ after ∧
  (∀ line ∈ before ++ after, line = []) ∧ (∀ line, kept.head? = some line → line ≠ []) ∧
  ∀ line, kept.getLast? = some line → line ≠ []

theorem isTrimmed_iff : IsTrimmed lines kept ↔ kept = stripOf List.isEmpty lines := by
  rw [eq_stripOf_iff]
  simp only [IsTrimmed, List.isEmpty_iff, ne_eq]

theorem IsTrimmed.isFlush (h : IsTrimmed lines kept) (hlines : IsFlush lines) : IsFlush kept := by
  obtain ⟨before, after, rfl, hempty, -⟩ := h
  exact hlines.of_append hempty

theorem IsTrimmed.mem_of_mem (h : IsTrimmed lines kept) {line : Text} (hline : line ∈ kept) :
    line ∈ lines := by
  obtain ⟨before, after, rfl, -⟩ := h
  exact List.mem_append_left _ (List.mem_append_right _ hline)

/-! ## The lines of a note -/

/-- The lines of a note: the words on its marker, if there are any, and those of its body. -/
def linesOf (words : Text) (kept : List Text) : List Text :=
  if strip words = [] then kept else strip words :: kept

theorem newline_not_mem_dedent (h : ∀ line ∈ body, '\n' ∉ line) :
    ∀ line ∈ dedent body, '\n' ∉ line := by
  intro line hline
  obtain ⟨original, horiginal, rfl⟩ := List.mem_map.1 hline
  split
  · exact List.not_mem_nil
  · exact fun hnewline => h original horiginal ((List.drop_sublist ..).subset hnewline)

theorem wordBody_eq (h : ∀ line ∈ body, '\n' ∉ line) :
    wordBody body = joinWith '\n' (stripOf List.isEmpty (dedent body)) := by
  cases body with
  | nil => rfl
  | cons first rest =>
    rw [wordBody, splitAt_joinWith (List.cons_ne_nil _ _) h]
    exact stripOf_joinWith (newline_not_mem_dedent h)

/-- Lines whose first one is not empty make a text that is not. -/
theorem joinWith_ne_nil {line : Text} (h : line ≠ []) (more : List Text) :
    joinWith '\n' (line :: more) ≠ [] := by
  cases more with
  | nil => rwa [joinWith_singleton]
  | cons second more =>
    rw [joinWith_cons (List.cons_ne_nil _ _)]
    exact List.append_ne_nil_of_left_ne_nil h _

/-- The text of a note is that of its lines. -/
theorem word_eq (h : ∀ line ∈ body, '\n' ∉ line) :
    word words body = joinWith '\n' (linesOf words (stripOf List.isEmpty (dedent body))) := by
  obtain ⟨-, -, -, -, hhead, -⟩ := isTrimmed_iff.2 (rfl : stripOf List.isEmpty (dedent body) = _)
  rw [word, wordBody_eq h, linesOf]
  generalize strip words = marked, stripOf List.isEmpty (dedent body) = kept at hhead ⊢
  cases kept with
  | nil => cases marked <;> rfl
  | cons line more =>
    have hfilter : [joinWith '\n' (line :: more)].filter (!·.isEmpty) =
        [joinWith '\n' (line :: more)] := by
      refine List.filter_cons_of_pos ?_
      rw [Bool.not_eq_true', List.isEmpty_eq_false_iff]
      exact joinWith_ne_nil (hhead line rfl) more
    cases marked with
    | nil =>
      rw [if_pos rfl, List.filter_cons_of_neg (by decide), hfilter, joinWith_singleton]
    | cons c rest =>
      rw [if_neg (List.cons_ne_nil _ _), List.filter_cons_of_pos rfl, hfilter,
        joinWith_cons (List.cons_ne_nil _ _), joinWith_singleton,
        joinWith_cons (List.cons_ne_nil _ _)]

/-! ## The same text again -/

theorem isBlank_of_isSpaceOrTab {c : Char} (h : isSpaceOrTab c = true) : isBlank c = true := by
  rw [isSpaceOrTab, Bool.or_eq_true, beq_iff_eq, beq_iff_eq] at h
  rcases h with rfl | rfl <;> rfl

/-- Neither the words on the marker nor what they stand before leaves a margin. -/
theorem isFlush_linesOf (words : Text) (h : IsFlush kept) : IsFlush (linesOf words kept) := by
  rw [linesOf]
  split
  · exact h
  · rename_i hwords
    cases hmarked : strip words with
    | nil => exact absurd hmarked hwords
    | cons c rest =>
      refine h.cons (Bool.eq_false_iff.2 fun hc => ?_) rest
      have hhead : (stripOf isBlank words).head? = some c := congrArg List.head? hmarked
      exact not_of_head?_stripOf hhead (isBlank_of_isSpaceOrTab hc)

/-- Neither the first nor the last line of a note is empty. -/
theorem stripOf_linesOf (words : Text) (h : IsTrimmed lines kept) :
    stripOf List.isEmpty (linesOf words kept) = linesOf words kept := by
  obtain ⟨-, -, -, -, hhead, hlast⟩ := h
  rw [stripOf_eq_self_iff, linesOf]
  simp only [List.isEmpty_iff]
  split
  · exact ⟨hhead, hlast⟩
  · rename_i hwords
    refine ⟨fun line hline => Option.some.inj hline ▸ hwords, fun line hline => ?_⟩
    rw [List.getLast?_cons] at hline
    cases hkept : kept.getLast? with
    | none => rw [hkept] at hline; exact Option.some.inj hline ▸ hwords
    | some last => rw [hkept] at hline; exact Option.some.inj hline ▸ hlast last hkept

theorem newline_not_mem_linesOf (hwords : '\n' ∉ words) (hkept : ∀ line ∈ kept, '\n' ∉ line) :
    ∀ line ∈ linesOf words kept, '\n' ∉ line := by
  rw [linesOf]
  split
  · exact hkept
  · rw [List.forall_mem_cons]
    exact ⟨fun hnewline => hwords ((stripOf_isInfix isBlank words).subset hnewline), hkept⟩

/-- Lines without a margin and without empty ones at the ends make a text that is worded as it
    is. -/
theorem word_splitAt_joinWith (hflush : IsFlush lines)
    (hends : stripOf List.isEmpty lines = lines) (h : ∀ line ∈ lines, '\n' ∉ line) :
    word [] (splitAt '\n' (joinWith '\n' lines)) = joinWith '\n' lines := by
  cases lines with
  | nil => rfl
  | cons line more =>
    rw [splitAt_joinWith (List.cons_ne_nil _ _) h, word_eq h, hflush.dedent_eq, hends]
    rfl

/-- The text of a note is made of the words on its marker, without blanks at the ends, and of
    the lines of its body: without their margin, those of spaces and tabs only emptied, and
    without the empty ones at the ends. A note of one line with a body of these lines has the
    same text. -/
theorem notes_are_normal (hbody : ∀ line ∈ body, '\n' ∉ line) :
    (∃ short kept, (∀ other, IsDedented body other ↔ other = short) ∧
      (∀ other, IsTrimmed short other ↔ other = kept) ∧
      word words body = joinWith '\n' (if strip words = [] then kept else strip words :: kept)) ∧
    ('\n' ∉ words → word [] (splitAt '\n' (word words body)) = word words body) := by
  refine ⟨⟨dedent body, stripOf List.isEmpty (dedent body), fun other => isDedented_iff,
    fun other => isTrimmed_iff, word_eq hbody⟩, fun hwords => ?_⟩
  have htrimmed := isTrimmed_iff.2 (rfl : stripOf List.isEmpty (dedent body) = _)
  rw [word_eq hbody]
  exact word_splitAt_joinWith (isFlush_linesOf words (htrimmed.isFlush (isFlush_dedent body)))
    (stripOf_linesOf words htrimmed) (newline_not_mem_linesOf hwords fun line hline =>
      newline_not_mem_dedent hbody line (htrimmed.mem_of_mem hline))

/-- Comments indented by tabs and spaces, between lines with nothing else. -/
def indentedBody : List Text :=
  ["  ", "\t  int a;", "\t b  ", " \t ", "\t\tc", ""].map String.toList

theorem notes_are_normal_indented :
    (∀ line ∈ indentedBody, '\n' ∉ line) ∧ '\n' ∉ " Setup ".toList ∧
      word " Setup ".toList indentedBody = "Setup\n  int a;\n b  \n\n\tc".toList ∧
      word [] (splitAt '\n' (word " Setup ".toList indentedBody)) =
        word " Setup ".toList indentedBody :=
  have hbody : ∀ line ∈ indentedBody, '\n' ∉ line := by decide
  have hwords : '\n' ∉ " Setup ".toList := by decide
  ⟨hbody, hwords, by decide, (notes_are_normal hbody).2 hwords⟩

end Marginalia.Note
