import Concordance.Content
import Concordance.Json.Decoder

/-! # Entities

Summaries of pages, with what another bundle needs to link to them, in the JSON
form in which bundles exchange them.
-/

namespace Concordance

namespace Address

def json (a : Address) : Json :=
  .object [("bundle_id", .string a.bundle), ("fragment", .optional a.fragment),
    ("path", .array (a.path.map .string))]

def ofJson? (j : Json) : Option Address := do
  let r ← Decode.record ["bundle_id", "fragment", "path"] j
  let bundle ← r.required "bundle_id" Decode.text
  let fragment ← r.optional "fragment" Decode.text
  let path ← r.required "path" (Decode.list Decode.text)
  return { bundle, path, fragment }

end Address

namespace Availability

/-- The JSON form. Versions that are not known are left out. -/
def json (a : Availability) : Json :=
  let version (name : String) : Option String → List (String × Json)
    | none => []
    | some s => [(name, .string s)]
  .object (version "deprecated" a.deprecated ++ version "introduced" a.introduced
    ++ [("platform", .string a.platform)])

def ofJson? (j : Json) : Option Availability := do
  let r ← Decode.record ["deprecated", "introduced", "platform"] j
  let deprecated ← r.defaulted "deprecated" none (Decode.nullable Decode.text)
  let introduced ← r.defaulted "introduced" none (Decode.nullable Decode.text)
  let platform ← r.required "platform" Decode.text
  return { deprecated, introduced, platform }

end Availability

/-- The summary of a page. -/
structure Entity where
  /-- The first paragraph as plain text. -/
  summary : String := ""
  availability : List Availability := []
  kind : String
  reference : Address
  /-- Its role, such as the kind of symbol. -/
  role : String := ""
  title : String
  /-- Where it is shown. -/
  url : String
  deriving Repr, DecidableEq

namespace Entity

def json (e : Entity) : Json :=
  .object [("abstract", .string e.summary),
    ("availability", .array (e.availability.map Availability.json)),
    ("kind", .string e.kind), ("reference", e.reference.json), ("role", .string e.role),
    ("title", .string e.title), ("url", .string e.url)]

def ofJson? (j : Json) : Option Entity := do
  let r ← Decode.record
    ["abstract", "availability", "kind", "reference", "role", "title", "url"] j
  let summary ← r.defaulted "abstract" "" Decode.text
  let availability ← r.defaulted "availability" [] (Decode.list Availability.ofJson?)
  let kind ← r.required "kind" Decode.text
  let reference ← r.required "reference" Address.ofJson?
  let role ← r.defaulted "role" "" Decode.text
  let title ← r.required "title" Decode.text
  let url ← r.required "url" Decode.text
  return { summary, availability, kind, reference, role, title, url }

def listOfJson? (j : Json) : Option (List Entity) := Decode.list ofJson? j

end Entity

end Concordance
