import Marginalia.Text.Word.Table

/-!
# Word characters

Letters and numerals, and with the underscore the characters that words are
made of. Slugs keep these, and a quote after one of them is no literal.
-/

namespace Marginalia.Text

/-- A letter or a numeral. -/
def isAlphanumeric (c : Char) : Bool := c.isAlphanum || wordRanges.contains c.toNat

/-- A letter, a numeral or an underscore. -/
def isWord (c : Char) : Bool := isAlphanumeric c || c == '_'

end Marginalia.Text
