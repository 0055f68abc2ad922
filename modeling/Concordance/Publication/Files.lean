import Concordance.Json.Printer
import Concordance.Project
import Concordance.Text.FilePath

/-! # The files of a publication

Every page is a file at a place that its path gives, below a directory for all
pages of its root. Beside them stand a file with all references, one for other
bundles, and the lock.
-/

namespace Concordance

namespace PublishedPage

/-- A component of a page's path as the name of a file: in lower case, with marks in place of what
would divide it. -/
def fileComponent (component : String) : String :=
  let escape (c : Char) (by_ : String) : List Char → List Char := Text.replaceChar c by_.toList
  String.ofList
    (escape '\x5c' "%5C" (escape '/' "%2F" (escape '%' "%25" (Text.lower component).toList)))

def file (dir : String) (p : PublishedPage) : String :=
  let root := if p.kind == .tutorial then "tutorials" else "documentation"
  let base := FilePath.join (FilePath.join dir "data") root
  match p.address.path.getLast? with
  | none => base ++ ".json"
  | some last =>
      FilePath.join ((p.address.path.dropLast.map fileComponent).foldl FilePath.join base)
        (fileComponent last ++ ".json")

end PublishedPage

namespace Publication

def referencesFile : String := "references.json"

def entitiesFile : String := "linkable-entities.json"

def jsonText (j : Json) : String := j.pretty ++ "\n"

/-- The files with their texts, in the order in which they are written. -/
def files (dir : String) (p : Publication) : List (String × String) :=
  p.pages.map (fun page => (page.file dir, jsonText page.rendered.json))
    ++ [(FilePath.join dir referencesFile, jsonText (Rendered.Reference.mapJson p.references)),
      (FilePath.join dir entitiesFile, jsonText (.array (p.entities.map Entity.json))),
      (FilePath.join dir Lock.fileName, p.lock.text)]

end Publication

end Concordance
