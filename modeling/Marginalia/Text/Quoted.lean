import Marginalia.Text.Quoted.Table
import Marginalia.Text.Basic

/-!
# Quoted texts

How messages quote a text: between single quotes, or double ones if it holds a
single quote and no double one, with a backslash before the quote and the
backslash and the characters that cannot be printed spelled out.
-/

namespace Marginalia.Text

/-- A character that a quoted text shows as it is. -/
def isPrintable (c : Char) : Bool :=
  (0x20 ≤ c.toNat && c.toNat ≤ 0x7E) || printableRanges.contains c.toNat

/-- The last `width` hexadecimal digits of `n`, in small letters. -/
def hex (width n : Nat) : Text :=
  match width with
  | 0 => []
  | width + 1 => hex width (n / 16) ++ [Nat.digitChar (n % 16)]

/-- The quote around a text: the single one, unless only it occurs inside. -/
def quoteMark (s : Text) : Char := if s.contains '\'' && !s.contains '"' then '"' else '\''

/-- The spelling of a character between the quotes `mark`. -/
def quotedChar (mark c : Char) : Text :=
  if c = mark ∨ c = '\\' then ['\\', c]
  else if c = '\n' then ['\\', 'n']
  else if c = '\r' then ['\\', 'r']
  else if c = '\t' then ['\\', 't']
  else if isPrintable c then [c]
  else if c.toNat < 0x100 then '\\' :: 'x' :: hex 2 c.toNat
  else if c.toNat < 0x10000 then '\\' :: 'u' :: hex 4 c.toNat
  else '\\' :: 'U' :: hex 8 c.toNat

/-- The text in quotes, as messages show it. -/
def quoted (s : Text) : String :=
  String.ofList (quoteMark s :: s.flatMap (quotedChar (quoteMark s)) ++ [quoteMark s])

end Marginalia.Text
