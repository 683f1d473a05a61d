import Marginalia.Dialect
import Marginalia.Text.Word

/-!
# Comments in a line

Finding the line comment of a line, where it has one: the first start of a line
comment outside literals and block comments. A literal ends at its quote or at
the end of the line, a backslash inside it taking the next character along. A
block comment may go on over lines, so a scan starts inside one or not, and
tells where it ends.

A scan moves a cursor over the line (`step`), jumping over delimiters, until it
has an outcome. If both block delimiters are empty it may jump in place for
ever; a scan is therefore a bounded run (`run`), and `findComment` gives the
outcome if there is one. The bound is large enough to reach it whenever one of
the two is not empty.
-/

namespace Marginalia.Scan

/-- What the characters at the cursor belong to. -/
inductive Mode
  | code
  | block
  | literal (quote : Char)
  deriving DecidableEq, Repr

/-- A place in a line. -/
structure Cursor where
  /-- What the characters here belong to. -/
  mode : Mode
  /-- The character just before. -/
  before : Option Char
  /-- The number of characters before. -/
  column : Nat
  /-- The characters from here on. -/
  rest : Text
  deriving DecidableEq, Repr

/-- What a scan finds out about a line. -/
structure Outcome where
  /-- Where the line comment starts. -/
  comment : Option Nat
  /-- Whether the line ends in a block comment. -/
  inBlock : Bool
  deriving DecidableEq, Repr

/-- The cursor `n` characters further on. -/
def Cursor.advance (s : Cursor) (n : Nat) (mode : Mode) : Cursor where
  mode := mode
  before := (s.rest.take n).getLast?.or s.before
  column := s.column + n
  rest := s.rest.drop n

/-- Whether the character `c` opens a literal: a quote does, but for a single
    one after a letter or numeral, which separates digits. -/
def opensLiteral (before : Option Char) (c : Char) : Bool :=
  c == '"' || (c == '\'' && !before.any Text.isAlphanumeric)

/-- One move of the cursor, or the outcome if it has come to one. -/
def step (d : Dialect) (s : Cursor) : Outcome ⊕ Cursor :=
  match s.rest, s.mode with
  | [], mode => .inl ⟨none, mode == .block⟩
  | rest, .block =>
    match Text.find? d.blockClose rest with
    | none => .inl ⟨none, true⟩
    -- The search starts past the opening delimiter, so `/*/` does not close itself.
    | some n => .inr (s.advance (n + d.blockClose.length) .code)
  | c :: _, .literal quote =>
    if c = '\\' then .inr (s.advance 2 (.literal quote))
    else .inr (s.advance 1 (if c = quote then .code else .literal quote))
  | c :: rest, .code =>
    if d.lineComment.isPrefixOf (c :: rest) then .inl ⟨some s.column, false⟩
    else if d.blockOpen.isPrefixOf (c :: rest) then .inr (s.advance d.blockOpen.length .block)
    else .inr (s.advance 1 (if opensLiteral s.before c then .literal c else .code))

/-- The outcome that at most `bound` moves come to. -/
def run (d : Dialect) (bound : Nat) (s : Cursor) : Option Outcome :=
  match bound, step d s with
  | _, .inl outcome => some outcome
  | 0, .inr _ => none
  | bound + 1, .inr next => run d bound next

/-- The cursor at the start of a line. -/
def start (inBlock : Bool) (line : Text) : Cursor where
  mode := if inBlock then .block else .code
  before := none
  column := 0
  rest := line

/-- Where the line comment of a line starts and whether the line ends in a block
    comment, given whether it starts in one. There is no answer if the scan
    goes on for ever. -/
def findComment (d : Dialect) (inBlock : Bool) (line : Text) : Option Outcome :=
  run d (2 * line.length + 1) (start inBlock line)

end Marginalia.Scan
