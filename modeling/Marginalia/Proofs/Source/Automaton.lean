import Mathlib.Tactic.SplitIfs
import Marginalia.Proofs.Text.Basic
import Marginalia.Source.Scan

/-!
# Reading a line character by character

A scan jumps: over delimiters, over what a backslash takes along, and in a block
comment to its end. In the standard dialect an automaton that reads one
character after the other (`Lexer.next`) comes to the same outcome. It cannot
look ahead, so it waits with a slash, and in a block comment with an asterisk,
for the next character.

* `step_standard`: a move of a scan keeps what the automaton will find;
* `findComment_standard`: a scan of a line finds what the automaton finds.
-/

namespace Marginalia

theorem Dialect.lineComment_standard : Dialect.standard.lineComment = ['/', '/'] := rfl

theorem Dialect.blockOpen_standard : Dialect.standard.blockOpen = ['/', '*'] := rfl

theorem Dialect.blockClose_standard : Dialect.standard.blockClose = ['*', '/'] := rfl

namespace Scan

/-- The two kinds of quotes. -/
inductive Quote
  | double
  | single
  deriving DecidableEq, Repr

namespace Quote

/-- The quote itself. -/
def char : Quote → Char
  | double => '"'
  | single => '\''

/-- The kind of a character that is a quote. -/
def ofChar (c : Char) : Quote := if c = '"' then double else single

theorem not_isAlphanumeric_char (quote : Quote) : ¬Text.isAlphanumeric quote.char := by
  cases quote <;> decide

theorem char_ofChar {before : Option Char} {c : Char} (h : opensLiteral before c) :
    (ofChar c).char = c := by
  simp only [opensLiteral, Bool.or_eq_true, beq_iff_eq, Bool.and_eq_true] at h
  rcases h with rfl | ⟨rfl, _⟩ <;> rfl

end Quote

/-- What the characters read so far on a line say about the next one. -/
inductive Lexer
  /-- It is code; the flag tells whether it follows a letter or a numeral. -/
  | code (afterWord : Bool)
  /-- It is code and follows a slash, with which it may start a comment. -/
  | slash
  /-- It is in a literal. -/
  | literal (quote : Quote)
  /-- It is in a literal and follows a backslash. -/
  | escape (quote : Quote)
  /-- It is in a block comment. -/
  | block
  /-- It is in a block comment and follows an asterisk, with which it may end it. -/
  | star
  /-- It is in a line comment. -/
  | comment
  deriving DecidableEq, Repr

namespace Lexer

/-- Before the first character of a line. -/
def start (inBlock : Bool) : Lexer := if inBlock then block else code false

/-- After a character of code that no comment starts or ends with. -/
def inCode (afterWord : Bool) (c : Char) : Lexer :=
  if c = '/' then slash
  else if c = '"' ∨ c = '\'' ∧ afterWord = false then literal (.ofChar c)
  else code (Text.isAlphanumeric c)

/-- After one more character. -/
def next : Lexer → Char → Lexer
  | code afterWord, c => inCode afterWord c
  | slash, c => if c = '/' then comment else if c = '*' then block else inCode false c
  | literal quote, c =>
    if c = '\\' then escape quote else if c = quote.char then code false else literal quote
  | escape quote, _ => literal quote
  | block, c => if c = '*' then star else block
  | star, c => if c = '/' then code false else if c = '*' then star else block
  | comment, _ => comment

/-- After the characters of a text. -/
def read (s : Lexer) (text : Text) : Lexer := text.foldl next s

/-- In a block comment. -/
def inBlock : Lexer → Bool
  | block | star => true
  | _ => false

/-- What reading the rest of a line finds out, from the given column on. -/
def outcome (s : Lexer) (column : Nat) : Text → Outcome
  | [] => ⟨none, s.inBlock⟩
  | c :: rest =>
    if s.next c = comment then ⟨some (column - 1), false⟩
    else outcome (s.next c) (column + 1) rest

theorem inCode_ne_comment (afterWord : Bool) (c : Char) : inCode afterWord c ≠ comment := by
  unfold inCode
  split_ifs <;> simp

theorem outcome_code_cons (afterWord : Bool) (column : Nat) (c : Char) (rest : Text) :
    outcome (code afterWord) column (c :: rest) =
      outcome (inCode afterWord c) (column + 1) rest := by
  simp [outcome, next, inCode_ne_comment]

/-- A slash that starts no comment is like any other character of code. -/
theorem outcome_slash {column : Nat} {rest : Text} (h₁ : rest.head? ≠ some '/')
    (h₂ : rest.head? ≠ some '*') : outcome slash column rest = outcome (code false) column rest := by
  cases rest with
  | nil => rfl
  | cons c rest =>
    simp only [List.head?_cons, ne_eq, Option.some.injEq] at h₁ h₂
    have hn : next slash c = next (code false) c := by simp [next, h₁, h₂]
    rw [outcome, outcome, hn]

/-- An asterisk that ends no block comment is like any other character of it. -/
theorem outcome_star {column : Nat} {rest : Text} (h : rest.head? ≠ some '/') :
    outcome star column rest = outcome block column rest := by
  cases rest with
  | nil => rfl
  | cons c rest =>
    simp only [List.head?_cons, ne_eq, Option.some.injEq] at h
    have hn : next star c = next block c := by simp [next, h]
    rw [outcome, outcome, hn]

/-- In a block comment, the automaton finds what a search for its end finds. -/
theorem outcome_block (column : Nat) (rest : Text) :
    outcome block column rest =
      match Text.find? Dialect.standard.blockClose rest with
      | none => ⟨none, true⟩
      | some n => outcome (code false) (column + (n + 2)) (rest.drop (n + 2)) := by
  induction rest generalizing column with
  | nil => rfl
  | cons c rest ih =>
    have hfind : c = '*' → ∀ tail, rest = '/' :: tail →
        Text.find? Dialect.standard.blockClose (c :: rest) = some 0 := by
      rintro rfl tail rfl
      rfl
    have hskip : ¬(c = '*' ∧ rest.head? = some '/') →
        Text.find? Dialect.standard.blockClose (c :: rest) =
          (Text.find? Dialect.standard.blockClose rest).map (· + 1) := by
      intro h
      rw [Text.find?, if_neg]
      rintro hp
      obtain ⟨tail, ht⟩ := List.isPrefixOf_iff_prefix.1 hp
      obtain ⟨rfl, rfl⟩ := List.cons.inj ht
      exact h ⟨rfl, rfl⟩
    by_cases hend : c = '*' ∧ rest.head? = some '/'
    · obtain ⟨rfl, hr⟩ := hend
      obtain ⟨tail, rfl⟩ : ∃ tail, rest = '/' :: tail := by
        cases rest with
        | nil => simp at hr
        | cons d tail => exact ⟨tail, by simpa using hr⟩
      rw [hfind rfl tail rfl]
      rfl
    · have hstep : outcome block column (c :: rest) = outcome block (column + 1) rest := by
        by_cases hc : c = '*'
        · subst hc
          exact outcome_star fun hr => hend ⟨rfl, hr⟩
        · simp [outcome, next, hc]
      rw [hstep, ih, hskip hend]
      cases Text.find? Dialect.standard.blockClose rest with
      | none => rfl
      | some n => simp [Nat.add_assoc, Nat.add_comm 1]

/-- A backslash in a literal takes the next character along. -/
theorem outcome_escape (quote : Quote) (column : Nat) (rest : Text) :
    outcome (literal quote) column ('\\' :: rest) =
      outcome (literal quote) (column + 2) (rest.drop 1) := by
  cases rest with
  | nil => rfl
  | cons c rest => simp [outcome, next]

end Lexer

/-! ## The automaton beside the scan -/

namespace Cursor

/-- What the automaton knows where the cursor is. -/
def lexer (s : Cursor) : Lexer :=
  match s.mode with
  | .code => .code (s.before.any Text.isAlphanumeric)
  | .block => .block
  | .literal quote => .literal (.ofChar quote)

/-- What the automaton finds from the cursor on. -/
def outcome (s : Cursor) : Outcome := s.lexer.outcome s.column s.rest

/-- A literal is opened by a quote. -/
def Quoted (s : Cursor) : Prop :=
  ∀ quote, s.mode = .literal quote → (Quote.ofChar quote).char = quote

end Cursor

/-- What a move of a scan has to keep. -/
def Kept (s : Cursor) : Outcome ⊕ Cursor → Prop
  | .inl o => s.outcome = o
  | .inr t => t.outcome = s.outcome ∧ t.Quoted ∧ t.rest.length < s.rest.length

theorem kept_block (before : Option Char) (column : Nat) (c : Char) (rest : Text) :
    Kept ⟨.block, before, column, c :: rest⟩ (step .standard ⟨.block, before, column, c :: rest⟩) := by
  have h := Lexer.outcome_block column (c :: rest)
  simp only [step]
  cases hf : Text.find? Dialect.standard.blockClose (c :: rest) with
  | none =>
    rw [hf] at h
    exact h
  | some n =>
    rw [hf] at h
    refine ⟨?_, fun _ hm => Mode.noConfusion hm, ?_⟩
    · -- The slash of the delimiter is the character before the cursor.
      obtain ⟨skipped, after, hs, rfl⟩ := Text.exists_append_of_find? hf
      have hb : ((c :: rest).take (skipped.length + 2)).getLast? = some '/' := by
        rw [hs, Dialect.blockClose_standard, List.take_append_of_le_length (by simp),
          List.take_of_length_le (by simp)]
        simp
      have hl : Cursor.lexer ((⟨.block, before, column, c :: rest⟩ : Cursor).advance
          (skipped.length + Dialect.standard.blockClose.length) .code) = .code false := by
        simp only [Cursor.lexer, Cursor.advance]
        rw [Dialect.blockClose_standard, List.length_cons, List.length_singleton, hb]
        rfl
      rw [Cursor.outcome, hl]
      exact h.symm
    · simp only [Cursor.advance, List.length_drop, List.length_cons, Dialect.blockClose_standard]
      omega

theorem kept_literal (before : Option Char) (column : Nat) (c : Char) (rest : Text) {quote : Char}
    (hq : (Quote.ofChar quote).char = quote) :
    Kept ⟨.literal quote, before, column, c :: rest⟩
      (step .standard ⟨.literal quote, before, column, c :: rest⟩) := by
  have hquoted : ∀ q, Mode.literal quote = .literal q → (Quote.ofChar q).char = q := by
    rintro _ ⟨⟩
    exact hq
  simp only [step]
  split_ifs with hc hclose
  · subst hc
    exact ⟨(Lexer.outcome_escape _ column rest).symm, hquoted, by
      simp only [Cursor.advance, List.length_drop, List.length_cons]; omega⟩
  · subst hclose
    have ha : Text.isAlphanumeric c = false := by
      simpa [hq] using (Quote.ofChar c).not_isAlphanumeric_char
    refine ⟨?_, fun _ hm => Mode.noConfusion hm, by simp [Cursor.advance]⟩
    simp [Cursor.outcome, Cursor.lexer, Cursor.advance, Lexer.outcome, Lexer.next, hc, hq, ha]
  · refine ⟨?_, hquoted, by simp [Cursor.advance]⟩
    simp [Cursor.outcome, Cursor.lexer, Cursor.advance, Lexer.outcome, Lexer.next, hc, hclose, hq]

theorem kept_code (before : Option Char) (column : Nat) (c : Char) (rest : Text) :
    Kept ⟨.code, before, column, c :: rest⟩
      (step .standard ⟨.code, before, column, c :: rest⟩) := by
  simp only [step]
  by_cases hline : Dialect.standard.lineComment.isPrefixOf (c :: rest)
  · rw [if_pos hline]
    obtain ⟨tail, ht⟩ := List.isPrefixOf_iff_prefix.1 hline
    obtain ⟨rfl, rfl⟩ := List.cons.inj ht
    rfl
  rw [if_neg hline]
  by_cases hblock : Dialect.standard.blockOpen.isPrefixOf (c :: rest)
  · rw [if_pos hblock]
    obtain ⟨tail, ht⟩ := List.isPrefixOf_iff_prefix.1 hblock
    obtain ⟨rfl, rfl⟩ := List.cons.inj ht
    exact ⟨rfl, fun _ hm => Mode.noConfusion hm, by
      simp only [Cursor.advance, Dialect.blockOpen_standard, List.length_drop, List.length_cons]
      omega⟩
  rw [if_neg hblock]
  refine ⟨?_, fun q hm => ?_, by simp [Cursor.advance]⟩
  · rw [Cursor.outcome, Cursor.outcome, Cursor.lexer, Cursor.lexer, Lexer.outcome_code_cons]
    by_cases hc : c = '/'
    · subst hc
      rw [Dialect.lineComment_standard] at hline
      rw [Dialect.blockOpen_standard] at hblock
      have hslash : rest.head? ≠ some '/' := fun h => hline (by cases rest <;> simp_all)
      have hstar : rest.head? ≠ some '*' := fun h => hblock (by cases rest <;> simp_all)
      rw [Lexer.inCode, if_pos rfl, Lexer.outcome_slash hslash hstar]
      rfl
    · rw [Lexer.inCode, if_neg hc]
      congr 1
      simp only [Cursor.advance, List.take_succ_cons, List.take_zero, List.getLast?_singleton,
        Option.some_or, Option.any_some, opensLiteral, Bool.or_eq_true, Bool.and_eq_true,
        beq_iff_eq, Bool.not_eq_true']
      split_ifs <;> rfl
  · simp only [Cursor.advance] at hm
    split at hm
    · rename_i hopens
      obtain rfl := Mode.literal.inj hm
      exact Quote.char_ofChar hopens
    · exact Mode.noConfusion hm

/-- A move of a scan in the standard dialect goes on in the line and keeps what
    the automaton will find; where there is no move, the automaton has found it. -/
theorem step_standard {s : Cursor} (hs : s.Quoted) :
    Kept s (step .standard s) := by
  obtain ⟨mode, before, column, rest⟩ := s
  cases rest with
  | nil => cases mode <;> rfl
  | cons c rest =>
    cases mode with
    | block => exact kept_block before column c rest
    | literal quote => exact kept_literal before column c rest (hs quote rfl)
    | code => exact kept_code before column c rest

theorem run_of_outcome {d : Dialect} {s : Cursor} {o : Outcome} (h : step d s = .inl o)
    (bound : Nat) : run d bound s = some o := by
  cases bound <;> unfold run <;> rw [h]

theorem run_of_move {d : Dialect} {s t : Cursor} (h : step d s = .inr t) (bound : Nat) :
    run d (bound + 1) s = run d bound t := by
  conv_lhs => unfold run
  rw [h]

/-- A scan that may make a move for every character finds what the automaton
    finds. -/
theorem run_standard {bound : Nat} {s : Cursor} (hs : s.Quoted) (hb : s.rest.length ≤ bound) :
    run .standard bound s = some s.outcome := by
  induction bound generalizing s with
  | zero =>
    obtain ⟨mode, before, column, rest⟩ := s
    obtain rfl := List.eq_nil_of_length_eq_zero (Nat.le_zero.1 hb)
    cases mode <;> rfl
  | succ bound ih =>
    have h := step_standard hs
    cases hstep : step .standard s with
    | inl o =>
      rw [hstep] at h
      rw [run_of_outcome hstep, ← show s.outcome = o from h]
    | inr t =>
      rw [hstep] at h
      obtain ⟨hsame, ht, hlt⟩ := h
      rw [run_of_move hstep, ih ht (by omega), hsame]

/-- In the standard dialect every scan has an outcome: what the automaton finds. -/
theorem findComment_standard (inBlock : Bool) (line : Text) :
    findComment .standard inBlock line = some ((Lexer.start inBlock).outcome 0 line) := by
  rw [findComment, run_standard]
  · cases inBlock <;> rfl
  · intro quote hm
    cases inBlock <;> exact Mode.noConfusion hm
  · simp only [start]
    omega

end Scan

end Marginalia
