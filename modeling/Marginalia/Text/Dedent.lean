import Marginalia.Text.Basic

/-!
# Dedent

Taking from lines the indentation they share. Lines of spaces and tabs only
become empty and do not count for the margin.
-/

namespace Marginalia.Text

/-- The longest text that both texts start with. -/
def commonStart : Text → Text → Text
  | a :: s, b :: t => if a = b then a :: commonStart s t else []
  | _, _ => []

/-- The spaces and tabs at the start of a line. -/
def indentation (line : Text) : Text := line.takeWhile isSpaceOrTab

/-- A line of spaces and tabs only. -/
def isIndentationOnly (line : Text) : Bool := line.all isSpaceOrTab

/-- The longest indentation common to all lines with anything else on them. -/
def margin (lines : List Text) : Text :=
  match (lines.filter (!isIndentationOnly ·)).map indentation with
  | [] => []
  | first :: rest => rest.foldl commonStart first

/-- The lines without their common indentation, those without anything else
    emptied. -/
def dedent (lines : List Text) : List Text :=
  let cut := (margin lines).length
  lines.map fun line => if isIndentationOnly line then [] else line.drop cut

end Marginalia.Text
