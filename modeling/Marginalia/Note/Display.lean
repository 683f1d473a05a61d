import Marginalia.Marker.Role

/-!
# Displayed code

The code a reader sees: the lines that are kept, with their own line ends, and
all others left out. A kept line goes from its number in the source text to its
position among the kept ones.
-/

namespace Marginalia

/-- The displayed code, and the numbers in the source text of its lines. -/
structure Display where
  code : Text
  kept : List Nat
  deriving DecidableEq, Repr

namespace Display

/-- The displayed part of a line with its line end, if it is kept. -/
def piece? (reading : Reading) : Option Text :=
  reading.role.shown?.map (· ++ reading.line.ending)

/-- The displayed code of a source text. -/
def ofReadings (readings : List Reading) : Display where
  code := (readings.filterMap piece?).flatten
  kept := (readings.filter (·.role.isKept)).map (·.line.number)

/-- Where the line of that number is displayed. -/
def position? (display : Display) (line : Int) : Option Nat :=
  line.toNat?.bind (display.kept.idxOf? ·)

end Display

end Marginalia
