import Marginalia.Text.Lower
import Marginalia.Text.Word

/-!
# Slugs

The ids that headings and files have in a page. In the id of a heading a hyphen
stands for every run of other characters between words; in the id of a file an
underscore stands for each of them.
-/

namespace Marginalia.Slug

/-- The text with a hyphen for every run of characters that are not word
    characters. `inGap` tells that the run before has its hyphen already. -/
def hyphenate (inGap : Bool) : Text → Text
  | [] => []
  | c :: rest =>
    if Text.isWord c then c :: hyphenate false rest
    else if inGap then hyphenate true rest
    else '-' :: hyphenate true rest

/-- The id of a heading. -/
def ofHeading (text : Text) : Text :=
  Text.stripOf (· == '-') (hyphenate false (Text.lower (Text.strip text)))

/-- The id of a file. -/
def ofFileName (name : Text) : Text :=
  "source-".toList ++ (Text.lower name).map fun c => if Text.isWord c then c else '_'

end Marginalia.Slug
