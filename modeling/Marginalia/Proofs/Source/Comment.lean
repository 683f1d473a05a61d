import Mathlib.Tactic.ByContra
import Marginalia.Proofs.Source.Automaton

/-!
# Where a line comment starts

In the standard dialect a line comment starts with the first two slashes that
the automaton meets in code. The code before it is therefore read to its end
without one, and so is what is left of it when blanks at its end are dropped,
since a blank ends neither a literal nor a comment.

* `exists_of_findComment`: what is before a line comment is read as code;
* `findComment_of_read_code`: two slashes after code start a line comment;
* `findComment_of_isCode`: a line that ends in code has none;
* `findComment_stripEnd_take`, `line_cut_at_comment_is_code`: cutting a line at its
  comment;
* `inBlock_eq_false_of_isBlankText`: a comment after blanks only is not on a
  line that starts in a block comment.
-/

namespace Marginalia.Scan

namespace Lexer

theorem read_cons (s : Lexer) (c : Char) (text : Text) :
    s.read (c :: text) = (s.next c).read text := rfl

theorem read_append (s : Lexer) (text more : Text) :
    s.read (text ++ more) = (s.read text).read more := List.foldl_append

/-- A line comment does not end before the line does. -/
theorem read_comment (text : Text) : comment.read text = comment := by
  induction text with
  | nil => rfl
  | cons c text ih => rw [read_cons, next, ih]

theorem start_ne_comment (inBlock : Bool) : start inBlock ≠ comment := by
  cases inBlock <;> simp [start]

/-- Reading a line that is no comment up to its end finds none. -/
theorem outcome_of_read_ne {s : Lexer} {text : Text} (h : s.read text ≠ comment) (column : Nat) :
    s.outcome column text = ⟨none, (s.read text).inBlock⟩ := by
  induction text generalizing s column with
  | nil => rfl
  | cons c text ih =>
    rw [read_cons] at h
    have hc : s.next c ≠ comment := fun hc => h (by rw [hc, read_comment])
    rw [outcome, if_neg hc, ih h, read_cons]

/-- A second slash in code starts a comment, at the column of the first. -/
theorem outcome_of_read_code {s : Lexer} {text : Text} {afterWord : Bool}
    (h : s.read text = code afterWord) (column : Nat) (rest : Text) :
    s.outcome column (text ++ '/' :: '/' :: rest) = ⟨some (column + text.length), false⟩ := by
  induction text generalizing s column with
  | nil =>
    obtain rfl : s = code afterWord := h
    rfl
  | cons c text ih =>
    rw [read_cons] at h
    have hc : s.next c ≠ comment := fun hc => by
      rw [hc, read_comment] at h
      exact Lexer.noConfusion h
    rw [List.cons_append, outcome, if_neg hc, ih h, List.length_cons]
    congr 2
    omega

theorem eq_slash_of_next_eq_comment {s : Lexer} {c : Char} (hs : s ≠ comment)
    (h : s.next c = comment) : s = slash ∧ c = '/' := by
  cases s with
  | slash =>
    refine ⟨rfl, ?_⟩
    by_contra hc
    rw [next, if_neg hc] at h
    split at h
    · exact Lexer.noConfusion h
    · exact inCode_ne_comment _ _ h
  | code afterWord => exact absurd h (inCode_ne_comment _ _)
  | comment => exact absurd rfl hs
  | literal quote | block | star =>
    simp only [next] at h
    split_ifs at h
  | escape quote => exact Lexer.noConfusion h

theorem eq_code_of_next_eq_slash {s : Lexer} {c : Char} (h : s.next c = slash) :
    (∃ afterWord, s = code afterWord) ∧ c = '/' := by
  have hslash : ∀ {afterWord : Bool}, inCode afterWord c = slash → c = '/' := by
    intro afterWord hi
    by_contra hc
    rw [inCode, if_neg hc] at hi
    split at hi <;> exact Lexer.noConfusion hi
  cases s with
  | code afterWord => exact ⟨⟨afterWord, rfl⟩, hslash h⟩
  | slash =>
    simp only [next] at h
    split_ifs at h with hc
    exact absurd (hslash h) hc
  | literal quote | block | star =>
    simp only [next] at h
    split_ifs at h
  | escape quote | comment => exact Lexer.noConfusion h

/-- A line comment starts with two slashes in code, of which the first may have
    been read before. -/
theorem exists_of_read_eq_comment {s : Lexer} {text : Text} (hs : s ≠ comment)
    (h : s.read text = comment) :
    (∃ before rest afterWord, text = before ++ '/' :: '/' :: rest ∧
      s.read before = code afterWord) ∨ (s = slash ∧ text.head? = some '/') := by
  induction text generalizing s with
  | nil => exact absurd h hs
  | cons c text ih =>
    rw [read_cons] at h
    by_cases hc : s.next c = comment
    · exact .inr ((eq_slash_of_next_eq_comment hs hc).imp_right fun hc => by rw [hc]; rfl)
    · rcases ih hc h with ⟨before, rest, afterWord, rfl, hr⟩ | ⟨hslash, hhead⟩
      · exact .inl ⟨c :: before, rest, afterWord, rfl, hr⟩
      · obtain ⟨⟨afterWord, rfl⟩, rfl⟩ := eq_code_of_next_eq_slash hslash
        obtain ⟨rest, rfl⟩ := List.head?_eq_some_iff.1 hhead
        exact .inl ⟨[], rest, afterWord, rfl, rfl⟩

/-! ### Blanks -/

/-- A blank is neither a delimiter nor a quote nor a backslash. -/
theorem ne_of_isBlank {c : Char} (h : Text.isBlank c) :
    c ≠ '/' ∧ c ≠ '*' ∧ c ≠ '"' ∧ c ≠ '\'' ∧ c ≠ '\\' := by
  refine ⟨?_, ?_, ?_, ?_, ?_⟩ <;> rintro rfl <;> exact absurd h (by decide)

/-- Code, outside literals and comments. -/
def IsCode : Lexer → Prop
  | code _ | slash => True
  | _ => False

theorem inBlock_of_isCode {s : Lexer} (h : s.IsCode) : s.inBlock = false := by
  cases s <;> first | rfl | exact h.elim

theorem ne_comment_of_isCode {s : Lexer} (h : s.IsCode) : s ≠ comment := by
  rintro rfl
  exact h

/-- A blank does not end a literal or a comment. -/
theorem isCode_of_next_isBlank {s : Lexer} {c : Char} (hc : Text.isBlank c)
    (h : (s.next c).IsCode) : s.IsCode := by
  obtain ⟨hslash, hstar, hquote, hapostrophe, hbackslash⟩ := ne_of_isBlank hc
  cases s with
  | code | slash => trivial
  | comment | escape quote => exact h
  | block | star =>
    simp only [next, if_neg hslash, if_neg hstar] at h
    exact h
  | literal quote =>
    have hc : c ≠ quote.char := by cases quote <;> assumption
    simp only [next, if_neg hbackslash, if_neg hc] at h
    exact h

theorem isCode_of_read_isBlank {s : Lexer} {blanks : Text} (hb : ∀ c ∈ blanks, Text.isBlank c)
    (h : (s.read blanks).IsCode) : s.IsCode := by
  induction blanks generalizing s with
  | nil => exact h
  | cons c blanks ih =>
    exact isCode_of_next_isBlank (hb c List.mem_cons_self)
      (ih (fun d hd => hb d (List.mem_cons_of_mem _ hd)) h)

/-- Blanks in code are read as code. -/
theorem exists_read_blanks {blanks : Text} (hb : ∀ c ∈ blanks, Text.isBlank c)
    (afterWord : Bool) : ∃ afterWord', (code afterWord).read blanks = code afterWord' := by
  induction blanks generalizing afterWord with
  | nil => exact ⟨afterWord, rfl⟩
  | cons c blanks ih =>
    obtain ⟨hslash, -, hquote, hapostrophe, -⟩ := ne_of_isBlank (hb c List.mem_cons_self)
    have hnext : next (code afterWord) c = code (Text.isAlphanumeric c) := by
      rw [next, inCode, if_neg hslash, if_neg]
      rintro (h | ⟨h, -⟩)
      · exact hquote h
      · exact hapostrophe h
    rw [read_cons, hnext]
    exact ih (fun d hd => hb d (List.mem_cons_of_mem _ hd)) _

end Lexer

/-! ## What a scan finds -/

variable {inBlock after : Bool} {line : Text} {column : Nat}

/-- Before a line comment there is code, and two slashes start it. -/
theorem exists_of_findComment
    (h : findComment .standard inBlock line = some ⟨some column, after⟩) :
    after = false ∧ ∃ before rest afterWord, line = before ++ '/' :: '/' :: rest ∧
      before.length = column ∧ (Lexer.start inBlock).read before = .code afterWord := by
  rw [findComment_standard] at h
  have ho := Option.some.inj h
  by_cases hr : (Lexer.start inBlock).read line = .comment
  · rcases Lexer.exists_of_read_eq_comment (Lexer.start_ne_comment _) hr with
      ⟨before, rest, afterWord, rfl, hc⟩ | ⟨hslash, _⟩
    · rw [Lexer.outcome_of_read_code hc, Nat.zero_add] at ho
      obtain ⟨hcolumn, rfl⟩ := Outcome.mk.inj ho
      exact ⟨rfl, before, rest, afterWord, rfl, Option.some.inj hcolumn, hc⟩
    · cases inBlock <;> exact Lexer.noConfusion hslash
  · rw [Lexer.outcome_of_read_ne hr] at ho
    exact absurd (Outcome.mk.inj ho).1 (by simp)

/-- Two slashes after code start a line comment. -/
theorem findComment_of_read_code {before : Text} {afterWord : Bool}
    (h : (Lexer.start inBlock).read before = .code afterWord) (rest : Text) :
    findComment .standard inBlock (before ++ '/' :: '/' :: rest) =
      some ⟨some before.length, false⟩ := by
  rw [findComment_standard, Lexer.outcome_of_read_code h, Nat.zero_add]

/-- A line that ends in code has no line comment and leaves no block comment
    open. -/
theorem findComment_of_isCode (h : ((Lexer.start inBlock).read line).IsCode) :
    findComment .standard inBlock line = some ⟨none, false⟩ := by
  rw [findComment_standard, Lexer.outcome_of_read_ne (Lexer.ne_comment_of_isCode h),
    Lexer.inBlock_of_isCode h]

/-- A line cut at its comment and at the blanks before it has no comment. -/
theorem findComment_stripEnd_take
    (h : findComment .standard inBlock line = some ⟨some column, after⟩) :
    findComment .standard inBlock (Text.stripEnd (line.take column)) = some ⟨none, false⟩ := by
  obtain ⟨_, before, rest, afterWord, rfl, rfl, hc⟩ := exists_of_findComment h
  rw [List.take_left]
  refine findComment_of_isCode
    (Lexer.isCode_of_read_isBlank (fun _ => Text.isBlank_of_mem_blanks (s := before)) ?_)
  rw [← Lexer.read_append, Text.stripEnd_append_blanks, hc]
  trivial

/-- A line cut at its comment is code, also without the blanks at its end: it holds no comment
    and leaves no block comment open. Whatever comment is written there again starts where the
    old one did. -/
theorem line_cut_at_comment_is_code
    (h : findComment .standard inBlock line = some ⟨some column, after⟩) :
    findComment .standard inBlock (line.take column) = some ⟨none, false⟩ ∧
      findComment .standard inBlock (Text.stripEnd (line.take column)) = some ⟨none, false⟩ ∧
      ∀ words, findComment .standard inBlock (line.take column ++ "//".toList ++ words) =
        some ⟨some column, false⟩ := by
  have hstripped := findComment_stripEnd_take h
  obtain ⟨-, before, rest, afterWord, rfl, rfl, hc⟩ := exists_of_findComment h
  rw [List.take_left] at hstripped ⊢
  refine ⟨findComment_of_isCode (hc ▸ trivial), hstripped, fun words => ?_⟩
  rw [List.append_assoc]
  exact findComment_of_read_code hc words

/-- The end of a block comment, a digit separator, literals with an escaped quote and with
    slashes, another block comment, a lone slash, and blanks before the comment. -/
def crowdedLine : Text := "// */ 1'000 '\\'' \"//\" /*/ */ / // a // b".toList

theorem line_cut_at_comment_is_code_crowded :
    findComment .standard true crowdedLine = some ⟨some 31, false⟩ ∧
      findComment .standard true (Text.stripEnd (crowdedLine.take 31)) = some ⟨none, false⟩ ∧
      findComment .standard true (crowdedLine.take 31 ++ "//".toList ++ "/*".toList) =
        some ⟨some 31, false⟩ := by
  have h : findComment .standard true crowdedLine = some ⟨some 31, false⟩ := by decide +kernel
  obtain ⟨-, hstripped, hagain⟩ := line_cut_at_comment_is_code h
  exact ⟨h, hstripped, hagain _⟩

/-- Blanks do not end a block comment, so a line comment after them only is on
    a line that does not start in one. -/
theorem inBlock_eq_false_of_isBlankText
    (h : findComment .standard inBlock line = some ⟨some column, after⟩)
    (hb : Text.isBlankText (line.take column)) : inBlock = false := by
  obtain ⟨_, before, rest, afterWord, rfl, rfl, hc⟩ := exists_of_findComment h
  rw [List.take_left, Text.isBlankText, List.all_eq_true] at hb
  have hcode : (Lexer.start inBlock).IsCode :=
    Lexer.isCode_of_read_isBlank hb (by rw [hc]; trivial)
  cases inBlock with
  | false => rfl
  | true => exact hcode.elim

end Marginalia.Scan
