import Marginalia.Text.Breaks

/-!
# Headings

The headings of a write-up: lines of one to six number signs and a text after
them, with or without number signs to close them. Lines in fenced code are
passed over. A fence is a line that starts with three or more backticks or
tildes; the next such line of the same character and of no lesser length ends
the fenced code, whatever else is on it.
-/

namespace Marginalia

/-- A heading of a write-up. -/
structure Heading where
  text : Text
  /-- The number of number signs before it. -/
  level : Nat
  deriving DecidableEq, Repr

namespace Heading

/-- The line without its indentation, which is at most three spaces. -/
def unindent? (line : Text) : Option Text :=
  if (line.takeWhile (· == ' ')).length ≤ 3 then some (line.dropWhile (· == ' ')) else none

/-- The start of a fence: its character and how many of it there are. -/
structure Fence where
  mark : Char
  length : Nat
  deriving DecidableEq, Repr

/-- The fence that a line is. -/
def fence? (line : Text) : Option Fence := do
  let rest ← unindent? line
  let mark ← rest.head?
  let length := (rest.takeWhile (· == mark)).length
  if (mark = '\x60' ∨ mark = '~') ∧ 3 ≤ length then some ⟨mark, length⟩ else none

/-- Whether a fence ends the code that another one started. -/
def Fence.ends (fence opened : Fence) : Bool :=
  fence.mark == opened.mark && opened.length ≤ fence.length

/-- The text without the number signs that close a heading, and the blanks before
    them. -/
def dropClosing (text : Text) : Text :=
  let before := Text.dropEndWhile (· == '#') text
  -- Number signs at the end of a word, or with no text before them, belong to the text.
  if before.getLast?.any Text.isSpaceOrTab && before.length < text.length then
    Text.dropEndWhile Text.isSpaceOrTab before
  else text

/-- The heading that a line outside fenced code is. -/
def ofLine? (line : Text) : Option Heading := do
  let rest ← unindent? line
  let level := (rest.takeWhile (· == '#')).length
  let after := rest.dropWhile (· == '#')
  let text := Text.strip (dropClosing (Text.stripOf Text.isSpaceOrTab after))
  if 1 ≤ level ∧ level ≤ 6 ∧ after.head?.all Text.isSpaceOrTab ∧ text ≠ [] then
    some ⟨text, level⟩
  else none

/-- The headings of some lines, given the fence that the code they start in was
    started by. -/
def ofLines (opened : Option Fence) : List Text → List Heading
  | [] => []
  | line :: rest =>
    match fence? line, opened with
    | some fence, none => ofLines (some fence) rest
    | some fence, some start => ofLines (if fence.ends start then none else some start) rest
    | none, some start => ofLines (some start) rest
    | none, none => (ofLine? line).toList ++ ofLines none rest

/-- The headings of a write-up, in its order. -/
def ofMarkdown (markdown : Text) : List Heading := ofLines none (Text.lines markdown)

end Heading

end Marginalia
