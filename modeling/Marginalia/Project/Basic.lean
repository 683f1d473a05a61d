import Marginalia.Text.Loose

/-!
# Projects

What is known of a project, and its source files as they are on disk, with the
markers still in them. What metadata tells of a project may be loose text.
-/

namespace Marginalia

/-- A project. -/
structure Project where
  /-- The name of its directory. -/
  id : Text
  name : LooseText
  /-- When a file of it was last modified, in milliseconds. -/
  modified : Int
  author : Option LooseText
  description : Option LooseText
  simulation : Option LooseText
  thumbnail : Option LooseText
  deriving DecidableEq, Repr

/-- A source file of a project. -/
structure SourceFile where
  name : Text
  code : Text
  /-- Whether it is the file shown first. -/
  primary : Bool
  deriving DecidableEq, Repr

/-- A text that is there and not empty. -/
def Project.given? : Option LooseText → Option LooseText
  | some (c :: t) => some (c :: t)
  | _ => none

end Marginalia
