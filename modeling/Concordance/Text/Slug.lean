import Concordance.Text.Casing

/-! # Slugs

Heading anchors and link fragments share one normal form: the words of the
lower-case text, letters and digits only, joined by single hyphens.
-/

namespace Concordance.Text

/-- The maximal runs of letters and digits. -/
def slugWords (s : List Char) : List (List Char) :=
  (s.splitOnP fun c => !isAlphanumeric c).filter fun word => !word.isEmpty

/-- The words of characters that are in lower case already, joined by hyphens. -/
def joinSlugWords (words : List (List Char)) : List Char :=
  List.intercalate ['-'] words

/-- The normal form of a heading's text or of a link's fragment. -/
def slug (s : String) : String :=
  String.ofList (joinSlugWords (slugWords (lowerAfter [] s.toList)))

end Concordance.Text
