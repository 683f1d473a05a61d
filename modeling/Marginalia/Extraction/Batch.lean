import Marginalia.Extraction

/-!
# Batches

Several source texts at once. Each gives its own extraction or failure, in the
order of the sources, and no text has a say in what becomes of another. How many
are worked on at a time must be said and be positive.
-/

namespace Marginalia.Extraction

/-- A capacity for work at a time that lets nothing be done. -/
structure NoCapacity where
  capacity : Int
  deriving DecidableEq, Repr

/-- What a capacity that is not positive is told as. -/
def NoCapacity.message (_ : NoCapacity) : String := "concurrency must be positive"

/-- The extractions of source texts, at most `capacity` at a time. There may be a limit
    to how deep searches for the lines of notes are nested. -/
def extractAll (capacity : Int) (sources : List Text) (limit : Option Nat := none) :
    Except NoCapacity (List (Except Failure Extraction)) :=
  if capacity < 1 then .error ⟨capacity⟩
  else .ok (sources.map fun source => extract .standard source limit)

end Marginalia.Extraction
