import Marginalia.Proofs.Source.Comment

/-!
# Reading a text of several lines character by character

Scanning the lines of a text one after the other, each from where the one before
ended, finds what a single automaton finds that reads the whole text (`stateAt`).
At the end of a line the automaton is back in code, whatever it was in, unless a
block comment is open: that goes on in the next line, and an asterisk at the end of
a line and a slash at the start of the next do not end it. While the automaton waits
with a slash it is still in code, and with an asterisk in a block comment, so the
place where it enters a line comment is that of the first of two slashes.

* `found_of_findComment`: what a scan of a single line finds;
* `findComments_follow_automaton`: what the scans of all lines find.
-/

namespace Marginalia.Scan

/-- What scans of lines find, each starting as the line before it ended. -/
def findComments (d : Dialect) (inBlock : Bool) : List Text → Option (List Outcome)
  | [] => some []
  | line :: rest => do
    let outcome ← findComment d inBlock line
    let outcomes ← findComments d outcome.inBlock rest
    return outcome :: outcomes

/-- The text of some lines, each with a newline after it. -/
def textOfLines (lines : List Text) : Text := lines.flatMap (· ++ ['\n'])

/-- Where in the text of some lines the line of that number starts. -/
def startOf (lines : List Text) (i : Nat) : Nat := (textOfLines (lines.take i)).length

namespace Lexer

/-- After one more character of a text of several lines. Literals and line comments
    end with their line, block comments do not. -/
def nextInText (s : Lexer) (c : Char) : Lexer := if c = '\n' then start s.inBlock else s.next c

/-- After the characters of a text of several lines. -/
def readText (s : Lexer) (text : Text) : Lexer := text.foldl nextInText s

/-- After the first `n` characters of a text that starts in a block comment or not. -/
def stateAt (inBlock : Bool) (text : Text) (n : Nat) : Lexer :=
  (start inBlock).readText (text.take n)

theorem readText_append (s : Lexer) (text more : Text) :
    s.readText (text ++ more) = (s.readText text).readText more := List.foldl_append

/-- On a line the automaton reads like the one for single lines. -/
theorem readText_eq_read {text : Text} (h : '\n' ∉ text) (s : Lexer) :
    s.readText text = s.read text := by
  induction text generalizing s with
  | nil => rfl
  | cons c text ih =>
    rw [List.mem_cons, not_or] at h
    rw [read_cons, ← ih h.2, readText, List.foldl_cons, nextInText, if_neg (Ne.symm h.1)]
    rfl

end Lexer

/-! ## A single line -/

/-- With `state n` for the state after `n` characters of a line of that length, the
    automaton is in code before the column, enters a line comment with the two
    characters there, and was in none before. -/
structure Enters (state : Nat → Lexer) (length column : Nat) : Prop where
  le_length : column + 2 ≤ length
  code : ∃ afterWord, state column = .code afterWord
  comment : state (column + 2) = .comment
  first : ∀ n < column + 2, state n ≠ .comment

/-- The outcome of a line is what the automaton finds, with `state n` for its state
    after `n` characters of the line. -/
structure Found (state : Nat → Lexer) (length : Nat) (outcome : Outcome) : Prop where
  /-- The column is that at which the automaton enters a line comment. -/
  column : ∀ column, outcome.comment = some column ↔ Enters state length column
  /-- There is none if it never does. -/
  none : outcome.comment = none ↔ ∀ n ≤ length, state n ≠ .comment
  /-- At the end of the line, the automaton may be in a block comment. -/
  inBlock : outcome.inBlock = (state length).inBlock

variable {state state' : Nat → Lexer} {length column : Nat} {inBlock : Bool} {line : Text}
  {outcome : Outcome}

theorem Enters.congr (h : Enters state length column) (hs : ∀ n ≤ length, state n = state' n) :
    Enters state' length column := by
  have hle := h.le_length
  refine ⟨hle, ?_, ?_, fun n hn => ?_⟩
  · rw [← hs column (by omega)]
    exact h.code
  · rw [← hs _ hle]
    exact h.comment
  · rw [← hs n (by omega)]
    exact h.first n hn

/-- What the automaton finds on a line depends on its states there. -/
theorem Found.congr (h : Found state length outcome) (hs : ∀ n ≤ length, state n = state' n) :
    Found state' length outcome := by
  have hs' : ∀ n ≤ length, state' n = state n := fun n hn => (hs n hn).symm
  refine ⟨fun column => (h.column column).trans ⟨(·.congr hs), (·.congr hs')⟩, h.none.trans ?_, ?_⟩
  · exact forall₂_congr fun n hn => by rw [hs n hn]
  · rw [h.inBlock, hs _ (Nat.le_refl _)]

/-- A line comment is entered once. -/
theorem Enters.unique {column' : Nat} (h : Enters state length column)
    (h' : Enters state length column') : column = column' := by
  have hle : column + 2 ≤ column' + 2 := Nat.le_of_not_lt fun hlt => h.first _ hlt h'.comment
  have hle' : column' + 2 ≤ column + 2 := Nat.le_of_not_lt fun hlt => h'.first _ hlt h.comment
  omega

/-- The automaton enters a line comment with the first two slashes in code. -/
theorem enters_of_read_code {before : Text} {afterWord : Bool}
    (h : (Lexer.start inBlock).read before = .code afterWord) (rest : Text) :
    Enters (fun n => (Lexer.start inBlock).read ((before ++ '/' :: '/' :: rest).take n))
      (before ++ '/' :: '/' :: rest).length before.length := by
  have htake : ∀ k, (before ++ '/' :: '/' :: rest).take (before.length + k) =
      before ++ ('/' :: '/' :: rest).take k := List.take_length_add_append
  have hread : ∀ k, (Lexer.start inBlock).read
      ((before ++ '/' :: '/' :: rest).take (before.length + k)) =
      (Lexer.code afterWord).read (('/' :: '/' :: rest).take k) := by
    intro k
    rw [htake, Lexer.read_append, h]
  refine ⟨by simp, ⟨afterWord, hread 0⟩, hread 2, fun n hn hcomment => ?_⟩
  rcases Nat.lt_or_ge before.length n with hlt | hle
  · -- One slash alone is no comment.
    obtain rfl : n = before.length + 1 := by omega
    rw [hread 1] at hcomment
    exact Lexer.noConfusion hcomment
  · -- A comment entered before would go on.
    rw [List.take_append_of_le_length hle] at hcomment
    rw [← List.take_append_drop n before, Lexer.read_append, hcomment, Lexer.read_comment] at h
    exact Lexer.noConfusion h

/-- A scan of a line finds what the automaton finds. -/
theorem found_of_findComment (h : findComment .standard inBlock line = some outcome) :
    Found (fun n => (Lexer.start inBlock).read (line.take n)) line.length outcome := by
  rw [findComment_standard] at h
  obtain rfl := Option.some.inj h
  by_cases hr : (Lexer.start inBlock).read line = .comment
  · rcases Lexer.exists_of_read_eq_comment (Lexer.start_ne_comment _) hr with
      ⟨before, rest, afterWord, rfl, hc⟩ | ⟨hslash, _⟩
    · have henters := enters_of_read_code hc rest
      rw [Lexer.outcome_of_read_code hc, Nat.zero_add]
      refine ⟨fun column => ⟨?_, fun h => ?_⟩, ⟨fun h => (nomatch h), fun h => ?_⟩, ?_⟩
      · rintro ⟨⟩
        exact henters
      · rw [henters.unique h]
      · exact absurd henters.comment (h _ henters.le_length)
      · rw [List.take_length, hr]
        rfl
    · cases inBlock <;> exact Lexer.noConfusion hslash
  · have hnone : ∀ n, (Lexer.start inBlock).read (line.take n) ≠ .comment := by
      intro n hn
      rw [← List.take_append_drop n line, Lexer.read_append, hn, Lexer.read_comment] at hr
      exact hr rfl
    rw [Lexer.outcome_of_read_ne hr]
    refine ⟨fun column => ⟨fun h => (nomatch h), fun h => absurd h.comment (hnone _)⟩,
      ⟨fun _ n _ => hnone n, fun _ => rfl⟩, ?_⟩
    rw [List.take_length]

/-! ## All lines -/

variable {lines : List Text} {i : Nat}

theorem textOfLines_cons (line : Text) (lines : List Text) :
    textOfLines (line :: lines) = line ++ '\n' :: textOfLines lines := by
  rw [textOfLines, List.flatMap_cons, List.append_assoc]
  rfl

/-- In the first line of a text. -/
theorem Lexer.stateAt_first (hline : '\n' ∉ line) (inBlock : Bool) (rest : Text) {n : Nat}
    (hn : n ≤ line.length) :
    stateAt inBlock (line ++ rest) n = (start inBlock).read (line.take n) := by
  rw [stateAt, List.take_append_of_le_length hn]
  exact readText_eq_read (fun h => hline (List.mem_of_mem_take h)) _

/-- After the first line of a text. -/
theorem Lexer.stateAt_later (hline : '\n' ∉ line) (inBlock : Bool) (rest : Text) (n : Nat) :
    stateAt inBlock (line ++ '\n' :: rest) (line.length + 1 + n) =
      stateAt ((start inBlock).read line).inBlock rest n := by
  have htake : (line ++ '\n' :: rest).take (line.length + 1 + n) = line ++ '\n' :: rest.take n := by
    rw [Nat.add_assoc, List.take_length_add_append, Nat.add_comm 1, List.take_succ_cons]
  rw [stateAt, htake, readText_append, readText_eq_read hline]
  rfl

/-- The scans of the lines of a text find what the automaton that reads the text
    finds on each of them. -/
theorem findComments_follow_automaton (h : ∀ line ∈ lines, '\n' ∉ line) (inBlock : Bool) :
    ∃ outcomes, findComments .standard inBlock lines = some outcomes ∧
      outcomes.length = lines.length ∧ ∀ i line outcome, lines[i]? = some line →
        outcomes[i]? = some outcome →
          Found (fun n => Lexer.stateAt inBlock (textOfLines lines) (startOf lines i + n))
            line.length outcome := by
  induction lines generalizing inBlock with
  | nil => exact ⟨[], rfl, rfl, fun _ _ _ h => nomatch h⟩
  | cons line lines ih =>
    obtain ⟨hline, hlines⟩ := List.forall_mem_cons.1 h
    have hscan := findComment_standard inBlock line
    have hfound := found_of_findComment hscan
    generalize (Lexer.start inBlock).outcome 0 line = outcome at hscan hfound
    obtain ⟨outcomes, houtcomes, hlength, hrest⟩ := ih hlines outcome.inBlock
    refine ⟨outcome :: outcomes, ?_, by rw [List.length_cons, List.length_cons, hlength], ?_⟩
    · rw [findComments, hscan, Option.bind_eq_bind, Option.bind_some, houtcomes]
      rfl
    intro i line' outcome' hi ho
    rw [textOfLines_cons]
    cases i with
    | zero =>
      obtain rfl := Option.some.inj hi
      obtain rfl := Option.some.inj ho
      refine hfound.congr fun n hn => ?_
      rw [show startOf (line :: lines) 0 = 0 from rfl, Nat.zero_add,
        Lexer.stateAt_first hline _ _ hn]
    | succ i =>
      refine (hrest i line' outcome' hi ho).congr fun n _ => ?_
      have hstart : startOf (line :: lines) (i + 1) = line.length + 1 + startOf lines i := by
        rw [startOf, List.take_succ_cons, textOfLines_cons, List.length_append, List.length_cons,
          startOf]
        omega
      rw [hstart, Nat.add_assoc, Lexer.stateAt_later hline, hfound.inBlock, List.take_length]

/-- Lines after the start of a block comment: its end, literals with an escaped quote
    and with slashes, another block comment that goes on past `*` and `/` on different
    lines, a digit separator, and a literal that ends with its line. -/
def awkwardLines : List Text :=
  ["a */ '\\'' \"//\" /*/".toList, "*".toList, "/ x */ 1'000 // c".toList, "\"y\\".toList,
    "// d".toList]

def awkwardOutcomes : List Outcome :=
  [⟨none, true⟩, ⟨none, true⟩, ⟨some 13, false⟩, ⟨none, false⟩, ⟨some 0, false⟩]

theorem findComments_follow_automaton_awkward :
    (∀ line ∈ awkwardLines, '\n' ∉ line) ∧
      findComments .standard true awkwardLines = some awkwardOutcomes ∧
      ∀ i line outcome, awkwardLines[i]? = some line → awkwardOutcomes[i]? = some outcome →
        Found (fun n => Lexer.stateAt true (textOfLines awkwardLines) (startOf awkwardLines i + n))
          line.length outcome := by
  have hlines : ∀ line ∈ awkwardLines, '\n' ∉ line := by decide
  have h : findComments .standard true awkwardLines = some awkwardOutcomes := by decide +kernel
  obtain ⟨outcomes, houtcomes, _, hfound⟩ := findComments_follow_automaton hlines true
  obtain rfl := Option.some.inj (h.symm.trans houtcomes)
  exact ⟨hlines, h, hfound⟩

end Marginalia.Scan
