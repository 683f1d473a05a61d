/-!
# Blank characters

The white space that is stripped from texts and that separates a sentinel from
what follows it: the white space of Unicode and the four separators of ASCII.
-/

namespace Marginalia.Text

/-- One of the four separators of ASCII. -/
def isSeparator (c : Char) : Bool := 0x1C ≤ c.toNat && c.toNat ≤ 0x1F

/-- White space: the controls from tab to carriage return, the four ASCII
    separators, the space, and the spaces and line separators of Unicode. -/
def isBlank (c : Char) : Bool :=
  (0x09 ≤ c.toNat && c.toNat ≤ 0x0D) || isSeparator c || c.toNat == 0x20 ||
  c.toNat == 0x85 || c.toNat == 0xA0 || c.toNat == 0x1680 ||
  (0x2000 ≤ c.toNat && c.toNat ≤ 0x200A) || c.toNat == 0x2028 || c.toNat == 0x2029 ||
  c.toNat == 0x202F || c.toNat == 0x205F || c.toNat == 0x3000

/-- A space or a tab. -/
def isSpaceOrTab (c : Char) : Bool := c == ' ' || c == '\t'

end Marginalia.Text
