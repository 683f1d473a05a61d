/-!
# Ranges of code points

A class of characters given as ascending, disjoint ranges of code points. The
search stops at the first range that starts past the character.
-/

namespace Marginalia.Text

/-- Ranges of code points, each with its first and its last. -/
abbrev Ranges := List (Nat × Nat)

namespace Ranges

/-- Whether `n` lies in one of the ranges, which are ascending. -/
def contains : Ranges → Nat → Bool
  | [], _ => false
  | (first, last) :: rest, n => if n < first then false else n ≤ last || contains rest n

end Ranges

end Marginalia.Text
