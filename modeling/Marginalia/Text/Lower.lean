import Marginalia.Text.Lower.Table
import Marginalia.Text.Basic

/-!
# Lowercase

The lowercase of a text, character by character but for two rules: the dotted
capital I becomes a small i and a combining dot, and a capital sigma becomes a
final one if a cased character comes before it and none after it, the
ignorable ones not counting.
-/

namespace Marginalia.Text

/-- The small letter a run of capitals holds for the code point `n`. -/
def Capitals.small? (run : Capitals) (n : Nat) : Option Char :=
  if run.first ≤ n ∧ n ≤ run.last ∧ (n - run.first) % run.step = 0 then
    some (Char.ofNat (run.image + (n - run.first)))
  else none

/-- The small letter of a character that has a single one, else itself. -/
def lowerChar (c : Char) : Char :=
  if c.toNat < 0x80 then c.toLower else (capitals.findSome? (·.small? c.toNat)).getD c

/-- Whether the first of the characters that count is cased. -/
def meetsCased : Text → Bool
  | [] => false
  | c :: rest =>
    if caseIgnorableRanges.contains c.toNat then meetsCased rest
    else casedRanges.contains c.toNat

/-- The lowercase of a character, given the ones before it, the nearest first,
    and the ones after it. -/
def lowerWithin (before : Text) (c : Char) (after : Text) : Text :=
  if c = 'Σ' then
    if meetsCased before && !meetsCased after then ['ς'] else ['σ']
  else if c = 'İ' then ['i', '\u0307']
  else [lowerChar c]

/-- The lowercase of `s`, where `before` holds the characters before it, the
    nearest first. -/
def lowerFrom (before : Text) : Text → Text
  | [] => []
  | c :: rest => lowerWithin before c rest ++ lowerFrom (c :: before) rest

/-- The lowercase of a text. -/
def lower (s : Text) : Text := lowerFrom [] s

end Marginalia.Text
