import Marginalia.Text.Dedent

/-!
# The wording of a note

The text of a note written between markers: what stands on the opening marker,
then the comments of its body without their common indentation and without
blank lines at the ends.
-/

namespace Marginalia.Note

/-- The text of a body: its lines dedented, and no empty ones at its ends. -/
def wordBody (body : List Text) : Text :=
  let text := Text.joinWith '\n' body
  Text.stripOf (· == '\n') (Text.joinWith '\n' (Text.dedent (Text.splitAt '\n' text)))

/-- The text of a note with these words on its marker and this body. -/
def word (onMarker : Text) (body : List Text) : Text :=
  Text.joinWith '\n' ([Text.strip onMarker, wordBody body].filter (!·.isEmpty))

end Marginalia.Note
