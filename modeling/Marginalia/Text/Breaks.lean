import Marginalia.Text.Basic

/-!
# Line breaks

The lines of a write-up. Unlike the lines of a source file they end at any line
break of Unicode, and a carriage return with a newline after it is one break.
-/

namespace Marginalia.Text

/-- A character that ends a line of a write-up. -/
def isBreak (c : Char) : Bool :=
  (0x0A ≤ c.toNat && c.toNat ≤ 0x0D) || (0x1C ≤ c.toNat && c.toNat ≤ 0x1E) ||
  c.toNat == 0x85 || c.toNat == 0x2028 || c.toNat == 0x2029

/-- The lines of a text without their breaks. A break at the end of the text
    starts no further line. -/
def lines : Text → List Text
  | [] => []
  | '\r' :: '\n' :: rest => [] :: lines rest
  | c :: rest =>
    if isBreak c then [] :: lines rest
    else match lines rest with
      | [] => [[c]]
      | line :: more => (c :: line) :: more

end Marginalia.Text
