import Concordance.Entity
import Concordance.Rendered.Basic

/-! # The published form of pages

Rendered pages as JSON, and back. Members that would be empty are left out where
reading takes their absence for emptiness.
-/

namespace Concordance.Rendered

/-- The member that names the form of an element. -/
def typeTag : String := "type"

/-- The member that names the form of a section. -/
def kindTag : String := "kind"

def textsJson (texts : List String) : Json := .array (texts.map .string)

/-- A member that is left out if there is no text. -/
def optionalMember (name : String) : Option String → List (String × Json)
  | none => []
  | some s => [(name, .string s)]

/-- A member that is left out if there are no items. -/
def listMember {α : Type} (name : String) (item : α → Json) : List α → List (String × Json)
  | [] => []
  | x :: xs => [(name, .array ((x :: xs).map item))]

namespace Inline

def json : Inline → Json
  | code s => .object [(typeTag, .string "codeVoice"), ("code", .string s)]
  | reference identifier isActive title =>
      .object ([(typeTag, .string "reference"), ("identifier", .string identifier),
        ("isActive", .bool isActive)] ++ optionalMember "overrideTitle" title)
  | text s => .object [(typeTag, .string "text"), ("text", .string s)]

/-- The names of the alternatives. -/
def forms : List String := ["codeVoice", "reference", "text"]

/-- Read the JSON form. Within a block or a summary, alternatives may be given by number. -/
def ofJson? (within : Bool) (j : Json) : Option Inline := do
  match ← Decode.tagged typeTag (if within then forms else []) j with
  | ("codeVoice", rest) =>
      let r ← Decode.record ["code"] rest
      return code (← r.required "code" Decode.text)
  | ("reference", rest) =>
      let r ← Decode.record ["identifier", "isActive", "overrideTitle"] rest
      let identifier ← r.required "identifier" Decode.text
      let isActive ← r.required "isActive" Decode.truth
      let title ← r.defaulted "overrideTitle" none (Decode.nullable Decode.text)
      return reference identifier isActive title
  | ("text", rest) =>
      let r ← Decode.record ["text"] rest
      return text (← r.required "text" Decode.text)
  | _ => none

def listJson (xs : List Inline) : Json := .array (xs.map json)

def listOfJson? (within : Bool) (j : Json) : Option (List Inline) :=
  Decode.list (ofJson? within) j

end Inline

namespace Block

def json : Block → Json
  | code lines language =>
      .object ([(typeTag, .string "codeListing"), ("code", textsJson lines)]
        ++ optionalMember "syntax" language)
  | heading anchor level text =>
      .object [(typeTag, .string "heading"), ("anchor", .string anchor),
        ("level", .whole level.toNat), ("text", .string text)]
  | orderedList items =>
      .object [(typeTag, .string "orderedList"), ("items", .array (items.map Inline.listJson))]
  | paragraph content =>
      .object [(typeTag, .string "paragraph"), ("inlineContent", Inline.listJson content)]
  | unorderedList items =>
      .object [(typeTag, .string "unorderedList"), ("items", .array (items.map Inline.listJson))]

def forms : List String :=
  ["codeListing", "heading", "orderedList", "paragraph", "unorderedList"]

/-- Read the JSON form. Within a section, alternatives may be given by number. -/
def ofJson? (within : Bool) (j : Json) : Option Block := do
  match ← Decode.tagged typeTag (if within then forms else []) j with
  | ("codeListing", rest) =>
      let r ← Decode.record ["code", "syntax"] rest
      let lines ← r.required "code" (Decode.list Decode.text)
      let language ← r.defaulted "syntax" none (Decode.nullable Decode.text)
      return code lines language
  | ("heading", rest) =>
      let r ← Decode.record ["anchor", "level", "text"] rest
      let anchor ← r.required "anchor" Decode.text
      let level ← r.required "level" Decode.byte
      let text ← r.required "text" Decode.text
      return heading anchor (UInt8.ofNat level) text
  | ("orderedList", rest) =>
      let r ← Decode.record ["items"] rest
      return orderedList (← r.required "items" (Decode.list (Inline.listOfJson? true)))
  | ("paragraph", rest) =>
      let r ← Decode.record ["inlineContent"] rest
      return paragraph (← r.required "inlineContent" (Inline.listOfJson? true))
  | ("unorderedList", rest) =>
      let r ← Decode.record ["items"] rest
      return unorderedList (← r.required "items" (Decode.list (Inline.listOfJson? true)))
  | _ => none

end Block

namespace Declaration

def json (d : Declaration) : Json :=
  .object [("languages", textsJson d.languages), ("text", .string d.text)]

def ofJson? (j : Json) : Option Declaration := do
  let r ← Decode.record ["languages", "text"] j
  let languages ← r.required "languages" (Decode.list Decode.text)
  let text ← r.required "text" Decode.text
  return { languages, text }

end Declaration

namespace Section

def json : Section → Json
  | content blocks =>
      .object [(kindTag, .string "content"), ("content", .array (blocks.map Block.json))]
  | declarations ds =>
      .object [(kindTag, .string "declarations"),
        ("declarations", .array (ds.map Declaration.json))]

def ofJson? (j : Json) : Option Section := do
  match ← Decode.tagged kindTag [] j with
  | ("content", rest) =>
      let r ← Decode.record ["content"] rest
      return content (← r.required "content" (Decode.list (Block.ofJson? true)))
  | ("declarations", rest) =>
      let r ← Decode.record ["declarations"] rest
      return declarations (← r.required "declarations" (Decode.list Declaration.ofJson?))
  | _ => none

end Section

namespace Group

def json (g : Group) : Json :=
  .object ((if g.generated then [("generated", .bool true)] else [])
    ++ [("identifiers", textsJson g.identifiers), ("title", .string g.title)])

def ofJson? (j : Json) : Option Group := do
  let r ← Decode.record ["generated", "identifiers", "title"] j
  let generated ← r.defaulted "generated" false Decode.truth
  let identifiers ← r.required "identifiers" (Decode.list Decode.text)
  let title ← r.required "title" Decode.text
  return { generated, identifiers, title }

end Group

namespace Relations

def json (s : Relations) : Json :=
  .object [("identifiers", textsJson s.identifiers), ("kind", .string s.kind),
    ("title", .string s.title)]

def ofJson? (j : Json) : Option Relations := do
  let r ← Decode.record ["identifiers", "kind", "title"] j
  let identifiers ← r.required "identifiers" (Decode.list Decode.text)
  let kind ← r.required "kind" Decode.text
  let title ← r.required "title" Decode.text
  return { identifiers, kind, title }

end Relations

namespace Chapter

def json (c : Chapter) : Json :=
  .object [("anchor", .string c.anchor), ("content", .array (c.content.map Block.json)),
    ("steps", .array (c.steps.map Inline.listJson)), ("title", .string c.title)]

def ofJson? (j : Json) : Option Chapter := do
  let r ← Decode.record ["anchor", "content", "steps", "title"] j
  let anchor ← r.required "anchor" Decode.text
  let content ← r.required "content" (Decode.list (Block.ofJson? false))
  let steps ← r.required "steps" (Decode.list (Inline.listOfJson? false))
  let title ← r.required "title" Decode.text
  return { anchor, content, steps, title }

end Chapter

namespace Metadata

def json (m : Metadata) : Json :=
  .object (optionalMember "module" m.module ++ listMember "platforms" Availability.json m.platforms
    ++ [("role", .string m.role), ("roleHeading", .string m.roleHeading)]
    ++ optionalMember "symbolKind" m.symbolKind ++ [("title", .string m.title)])

def ofJson? (j : Json) : Option Metadata := do
  let r ← Decode.record ["module", "platforms", "role", "roleHeading", "symbolKind", "title"] j
  let module ← r.defaulted "module" none (Decode.nullable Decode.text)
  let platforms ← r.defaulted "platforms" [] (Decode.list Availability.ofJson?)
  let role ← r.required "role" Decode.text
  let roleHeading ← r.required "roleHeading" Decode.text
  let symbolKind ← r.defaulted "symbolKind" none (Decode.nullable Decode.text)
  let title ← r.required "title" Decode.text
  return { module, platforms, role, roleHeading, symbolKind, title }

end Metadata

namespace Override

def languageJson (language : String) : Json := .object [("interfaceLanguage", .string language)]

def languageOfJson? (j : Json) : Option String := do
  let r ← Decode.record ["interfaceLanguage"] j
  r.required "interfaceLanguage" Decode.text

def json (o : Override) : Json :=
  .object [("patch", o.patch.json), ("traits", .array (o.languages.map languageJson))]

def ofJson? (j : Json) : Option Override := do
  let r ← Decode.record ["patch", "traits"] j
  let patch ← r.required "patch" Patch.ofJson?
  let languages ← r.required "traits" (Decode.list languageOfJson?)
  return { patch, languages }

end Override

namespace Reference

def json : Reference → Json
  | link identifier title url =>
      .object [(typeTag, .string "link"), ("identifier", .string identifier),
        ("title", .string title), ("url", .string url)]
  | topic summary identifier kind role title url =>
      .object [(typeTag, .string "topic"), ("abstract", Inline.listJson summary),
        ("identifier", .string identifier), ("kind", .string kind), ("role", .string role),
        ("title", .string title), ("url", .string url)]
  | unresolved identifier title =>
      .object [(typeTag, .string "unresolved"), ("identifier", .string identifier),
        ("title", .string title)]

def ofJson? (j : Json) : Option Reference := do
  match ← Decode.tagged typeTag [] j with
  | ("link", rest) =>
      let r ← Decode.record ["identifier", "title", "url"] rest
      let identifier ← r.required "identifier" Decode.text
      let title ← r.required "title" Decode.text
      let url ← r.required "url" Decode.text
      return link identifier title url
  | ("topic", rest) =>
      let r ← Decode.record ["abstract", "identifier", "kind", "role", "title", "url"] rest
      let summary ← r.required "abstract" (Inline.listOfJson? true)
      let identifier ← r.required "identifier" Decode.text
      let kind ← r.required "kind" Decode.text
      let role ← r.required "role" Decode.text
      let title ← r.required "title" Decode.text
      let url ← r.required "url" Decode.text
      return topic summary identifier kind role title url
  | ("unresolved", rest) =>
      let r ← Decode.record ["identifier", "title"] rest
      let identifier ← r.required "identifier" Decode.text
      let title ← r.required "title" Decode.text
      return unresolved identifier title
  | _ => none

def mapJson (references : Assoc String Reference) : Json :=
  .object (references.map fun (identifier, reference) => (identifier, reference.json))

end Reference

namespace Page

def hierarchyJson (paths : List (List String)) : Json :=
  .object [("paths", .array (paths.map textsJson))]

def hierarchyOfJson? (j : Json) : Option (List (List String)) := do
  let r ← Decode.record ["paths"] j
  r.required "paths" (Decode.list (Decode.list Decode.text))

/-- The JSON form of a page's identity: its language and its identifier. -/
def identityJson (language identifier : String) : Json :=
  .object [("interfaceLanguage", .string language), ("url", .string identifier)]

def identityOfJson? (j : Json) : Option (String × String) := do
  let r ← Decode.record ["interfaceLanguage", "url"] j
  let language ← r.required "interfaceLanguage" Decode.text
  let identifier ← r.required "url" Decode.text
  return (language, identifier)

def json (p : Page) : Json :=
  .object ([("abstract", Inline.listJson p.summary), ("hierarchy", hierarchyJson p.hierarchy),
      ("identifier", identityJson p.language p.identifier), ("kind", .string p.kind),
      ("metadata", p.metadata.json)]
    ++ listMember "primaryContentSections" Section.json p.sections
    ++ [("references", Reference.mapJson p.references)]
    ++ listMember "relationshipsSections" Relations.json p.relations
    ++ listMember "sections" Chapter.json p.chapters
    ++ listMember "seeAlsoSections" Group.json p.seeAlso
    ++ listMember "topicSections" Group.json p.topics
    ++ listMember "variantOverrides" Override.json p.overrides)

def memberNames : List String :=
  ["abstract", "hierarchy", "identifier", "kind", "metadata", "primaryContentSections",
    "references", "relationshipsSections", "sections", "seeAlsoSections", "topicSections",
    "variantOverrides"]

def ofJson? (j : Json) : Option Page := do
  let r ← Decode.record memberNames j
  let summary ← r.required "abstract" (Inline.listOfJson? false)
  let hierarchy ← r.required "hierarchy" hierarchyOfJson?
  let (language, identifier) ← r.required "identifier" identityOfJson?
  let kind ← r.required "kind" Decode.text
  let metadata ← r.required "metadata" Metadata.ofJson?
  let sections ← r.defaulted "primaryContentSections" [] (Decode.list Section.ofJson?)
  let references ← r.defaulted "references" [] (Decode.map Reference.ofJson?)
  let relations ← r.defaulted "relationshipsSections" [] (Decode.list Relations.ofJson?)
  let chapters ← r.defaulted "sections" [] (Decode.list Chapter.ofJson?)
  let seeAlso ← r.defaulted "seeAlsoSections" [] (Decode.list Group.ofJson?)
  let topics ← r.defaulted "topicSections" [] (Decode.list Group.ofJson?)
  let overrides ← r.defaulted "variantOverrides" [] (Decode.list Override.ofJson?)
  return {
    summary, hierarchy, language, identifier, kind, metadata, sections, references, relations
    chapters, seeAlso, topics, overrides }

end Page

end Concordance.Rendered
