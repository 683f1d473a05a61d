import Marginalia.Text.Numeral

/-!
# Decimal fractions

Numbers as a user writes them: a sign, digits of any script with perhaps a point
among them and single underscores between them, and a power of ten. Infinity and
the absence of a number have words of their own, in any case.
-/

namespace Marginalia

/-- The number `digits * 10 ^ exponent`, or its opposite. -/
structure Decimal where
  negative : Bool
  digits : Nat
  exponent : Int
  deriving DecidableEq, Repr

/-- What a user may write for a number. -/
inductive Quantity
  | finite (value : Decimal)
  | infinite (negative : Bool)
  | undefined
  deriving DecidableEq, Repr

namespace Decimal

/-- The value of an ASCII digit. -/
def digitValue (c : Char) : Nat := c.toNat - '0'.toNat

/-- The number that ASCII digits spell. -/
def natural (digits : Text) : Nat := Text.ofDigits (digits.map digitValue)

/-- The text with the digits of all scripts made ASCII digits. -/
def unifyDigits (s : Text) : Text :=
  s.map fun c => ((Text.digit? c).map Nat.digitChar).getD c

/-- The text without the underscores between digits. Any other underscore is
    refused. `afterDigit` tells whether a digit comes before the text. -/
def joinDigits? (afterDigit : Bool) : Text → Option Text
  | [] => some []
  | ['_'] => none
  | '_' :: c :: rest =>
    if afterDigit && c.isDigit then (joinDigits? true rest).map (c :: ·) else none
  | c :: rest => (joinDigits? c.isDigit rest).map (c :: ·)

/-- The sign at the start of a text, if it is a minus, and what follows the
    sign. -/
def splitSign : Text → Bool × Text
  | '-' :: rest => (true, rest)
  | '+' :: rest => (false, rest)
  | s => (false, s)

/-- The power of ten that a text spells, which may be empty. -/
def power? : Text → Option Int
  | [] => some 0
  | c :: rest =>
    let (negative, digits) := splitSign rest
    if (c = 'e' ∨ c = 'E') ∧ digits ≠ [] ∧ digits.all Char.isDigit then
      some (if negative then -(natural digits : Int) else natural digits)
    else none

/-- The number that a text without a sign spells in ASCII. -/
def unsigned? (negative : Bool) (s : Text) : Option Decimal := do
  let whole := s.takeWhile Char.isDigit
  let rest := s.dropWhile Char.isDigit
  let (fraction, rest) := match rest with
    | '.' :: after => (after.takeWhile Char.isDigit, after.dropWhile Char.isDigit)
    | _ => ([], rest)
  let power ← power? rest
  if whole ++ fraction = [] then none
  else some ⟨negative, natural (whole ++ fraction), power - fraction.length⟩

end Decimal

/-- A blank that may stand around a number: any but the separators of ASCII. -/
def Decimal.isPadding (c : Char) : Bool := Text.isBlank c && !Text.isSeparator c

/-- What a user wrote for a number, blanks around it not counting. -/
def Quantity.read? (s : Text) : Option Quantity := do
  let s ← Decimal.joinDigits? false (Decimal.unifyDigits (Text.stripOf Decimal.isPadding s))
  let (negative, s) := Decimal.splitSign s
  let word := s.map Char.toLower
  if word = "inf".toList ∨ word = "infinity".toList then some (.infinite negative)
  else if word = "nan".toList then some .undefined
  else (Decimal.unsigned? negative s).map .finite

end Marginalia
