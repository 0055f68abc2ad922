import Concordance.Content
import Concordance.Json.Decoder
import Concordance.Json.Reader

/-! # Symbol graphs

Descriptions of a module's symbols and of the relations between them, as extracted
from its sources.
-/

namespace Concordance

structure SymbolDescription where
  availability : List Availability := []
  /-- The pieces of its declaration. -/
  fragments : List String := []
  /-- The lines of its documentation comment. -/
  comment : Option (List String) := none
  /-- The language it is described in. -/
  language : String
  /-- The identifier that is unique to it. -/
  precise : String
  /-- The name of its kind for readers. -/
  kindName : String
  /-- The identifier of its kind, perhaps with a language before it. -/
  kindIdentifier : String
  title : String
  /-- Its path within the module. -/
  path : List String := []
  deriving Repr, DecidableEq

structure SymbolEdge where
  /-- What the edge means. -/
  kind : String
  /-- The symbol it starts from. -/
  source : String
  /-- The symbol it leads to. -/
  target : String
  /-- The path of that symbol, for readers. -/
  targetFallback : Option String := none
  deriving Repr, DecidableEq

/-- The symbols of a module. -/
structure SymbolGraph where
  module : String
  edges : List SymbolEdge := []
  symbols : List SymbolDescription := []
  deriving Repr, DecidableEq

/-- A symbol graph and the file it was read from. -/
structure SymbolGraphFile where
  path : String
  graph : SymbolGraph
  deriving Repr, DecidableEq

inductive SymbolFlaw where
  | noPath
  /-- A component of its path is blank. -/
  | emptyComponent
  /-- Its title is blank. -/
  | noTitle
  | unknownKind (identifier : String)
  deriving Repr, DecidableEq

def SymbolFlaw.message : SymbolFlaw → String
  | noPath => "symbol has no path components"
  | emptyComponent => "symbol path has an empty component"
  | noTitle => "symbol has no title"
  | unknownKind identifier => s!"unknown symbol kind `{identifier}`"

structure MalformedSymbol where
  path : String
  /-- The identifier that is unique to it. -/
  precise : String
  flaw : SymbolFlaw
  deriving Repr, DecidableEq

def MalformedSymbol.message (m : MalformedSymbol) : String :=
  s!"malformed symbol `{m.precise}` in {m.path}: {m.flaw.message}"

namespace SymbolKind

/-- The kinds that are documented. -/
def known : List String := [
  "associatedtype", "case", "class", "deinit", "enum", "extension", "func", "func.op", "init",
  "ivar", "macro", "method", "module", "property", "protocol", "struct", "subscript",
  "type.method", "type.property", "type.subscript", "typealias", "var"]

/-- What an identifier of a kind may start with to name a language. -/
def languageMarks : List String := ["swift.", "objc.", "c.", "cpp."]

/-- The identifier of a kind without its language. -/
def bare (identifier : String) : String :=
  (languageMarks.findSome? fun mark => Text.dropLead? mark identifier).getD identifier

end SymbolKind

namespace SymbolDescription

def kind (s : SymbolDescription) : SymbolKind where
  displayName := s.kindName
  identifier := SymbolKind.bare s.kindIdentifier

def declaration (s : SymbolDescription) : String := String.join s.fragments

def commentText (s : SymbolDescription) : Option String := s.comment.map ("\n".intercalate ·)

/-- How the symbol looks in the language it is described in. -/
def presentation (s : SymbolDescription) : Presentation where
  language := s.language
  title := s.title
  declaration := s.declaration

/-- What keeps the symbol from being placed, if anything does. -/
def flaw? (s : SymbolDescription) : Option SymbolFlaw :=
  if s.path.isEmpty then some .noPath
  else if s.path.any Text.isBlankText then some .emptyComponent
  else if Text.isBlankText s.title then some .noTitle
  else if !SymbolKind.known.contains s.kind.identifier then some (.unknownKind s.kindIdentifier)
  else none

def malformed? (s : SymbolDescription) (path : String) : Option MalformedSymbol :=
  s.flaw?.map fun flaw => ⟨path, s.precise, flaw⟩

/-- Read the availability on one platform. -/
def availabilityOfJson? (j : Json) : Option Availability := do
  let r ← Decode.record ["deprecated", "domain", "introduced"] j
  let deprecated ← r.defaulted "deprecated" none (Decode.nullable Decode.text)
  let platform ← r.required "domain" Decode.text
  let introduced ← r.defaulted "introduced" none (Decode.nullable Decode.text)
  return { deprecated, introduced, platform }

/-- Read a record with one field that is a text. -/
def soleText? (name : String) (j : Json) : Option String := do
  (← Decode.record [name] j).required name Decode.text

def commentOfJson? (j : Json) : Option (List String) := do
  (← Decode.record ["lines"] j).defaulted "lines" [] (Decode.list (soleText? "text"))

def identityOfJson? (j : Json) : Option (String × String) := do
  let r ← Decode.record ["interfaceLanguage", "precise"] j
  return (← r.required "interfaceLanguage" Decode.text, ← r.required "precise" Decode.text)

def kindOfJson? (j : Json) : Option (String × String) := do
  let r ← Decode.record ["displayName", "identifier"] j
  return (← r.required "displayName" Decode.text, ← r.required "identifier" Decode.text)

def ofJson? (j : Json) : Option SymbolDescription := do
  let r ← Decode.record ["availability", "declarationFragments", "docComment", "identifier",
    "kind", "names", "pathComponents"] j
  let availability ← r.defaulted "availability" [] (Decode.list availabilityOfJson?)
  let fragments ← r.defaulted "declarationFragments" [] (Decode.list (soleText? "spelling"))
  let comment ← r.defaulted "docComment" none (Decode.nullable commentOfJson?)
  let (language, precise) ← r.required "identifier" identityOfJson?
  let (kindName, kindIdentifier) ← r.required "kind" kindOfJson?
  let title ← r.required "names" (soleText? "title")
  let path ← r.defaulted "pathComponents" [] (Decode.list Decode.text)
  return { availability, fragments, comment, language, precise, kindName, kindIdentifier, title,
           path }

end SymbolDescription

namespace SymbolEdge

def ofJson? (j : Json) : Option SymbolEdge := do
  let r ← Decode.record ["kind", "source", "target", "targetFallback"] j
  let kind ← r.required "kind" Decode.text
  let source ← r.required "source" Decode.text
  let target ← r.required "target" Decode.text
  let targetFallback ← r.defaulted "targetFallback" none (Decode.nullable Decode.text)
  return { kind, source, target, targetFallback }

end SymbolEdge

namespace SymbolGraph

def ofJson? (j : Json) : Option SymbolGraph := do
  let r ← Decode.record ["module", "relationships", "symbols"] j
  let module ← r.required "module" (SymbolDescription.soleText? "name")
  let edges ← r.defaulted "relationships" [] (Decode.list SymbolEdge.ofJson?)
  let symbols ← r.defaulted "symbols" [] (Decode.list SymbolDescription.ofJson?)
  return { module, edges, symbols }

def parse? (text : String) : Option SymbolGraph := (Json.parse? text).bind ofJson?

end SymbolGraph

end Concordance
