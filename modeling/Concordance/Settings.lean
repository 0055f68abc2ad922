import Concordance.Json.Decoder
import Concordance.Toml.Reader

/-! # Settings of a project

What a project says about itself in its settings file: its bundle, the files that
belong to it, and the other bundles it links to.
-/

namespace Concordance

/-- Another bundle whose pages may be linked. -/
structure ExternalSource where
  /-- The media that the bundle serves: names with their addresses. -/
  assets : Assoc String String := []
  bundle : String
  /-- The file with the summaries of its pages, relative to the project. -/
  entities : String
  /-- The modules that it documents. -/
  modules : List String := []
  deriving Repr, DecidableEq

structure Settings where
  /-- The bundle that is built. -/
  bundle : String := "com.example.documentation"
  /-- The title of the root page if no symbol graph names a module. -/
  displayName : Option String := none
  /-- The language that comes first for symbols with several. -/
  language : String := "swift"
  /-- What the paths of files that are left out start with. -/
  excluded : List String := []
  external : List ExternalSource := []
  /-- What the paths of files that are read start with; none means that all are read. -/
  included : List String := []
  /-- Modules that are not documented here on purpose. -/
  unresolvable : List String := []
  deriving Repr, DecidableEq

/-- Why settings cannot be used. -/
inductive SettingsFlaw where
  | unreadable
  | duplicateBundle (bundle : String)
  deriving Repr, DecidableEq

def SettingsFlaw.message : SettingsFlaw → String
  | unreadable => "toml deserialize: not a configuration"
  | duplicateBundle bundle => s!"external bundle `{bundle}` is configured more than once"

namespace ExternalSource

def ofJson? (surplus : Bool) (j : Json) : Option ExternalSource := do
  let r ← Decode.closedRecord surplus ["assets", "bundle_id", "entities", "modules"] j
  let assets ← r.defaulted "assets" [] (Decode.map Decode.text)
  let bundle ← r.required "bundle_id" Decode.text
  let entities ← r.required "entities" Decode.text
  let modules ← r.defaulted "modules" [] (Decode.list Decode.text)
  return { assets, bundle, entities, modules }

end ExternalSource

namespace Settings

/-- Read settings. Where they come from a settings file, an array that stands for the fields of a
bundle may hold a surplus of items. -/
def ofJson? (surplus : Bool) (j : Json) : Option Settings := do
  let standard : Settings := {}
  let r ← Decode.closedRecord surplus ["bundle_id", "display_name", "default_language", "exclude",
    "external", "include", "unresolvable"] j
  let bundle ← r.defaulted "bundle_id" standard.bundle Decode.text
  let displayName ← r.defaulted "display_name" none (Decode.nullable Decode.text)
  let language ← r.defaulted "default_language" standard.language Decode.text
  let excluded ← r.defaulted "exclude" [] (Decode.list Decode.text)
  let external ← r.defaulted "external" [] (Decode.list (ExternalSource.ofJson? surplus))
  let included ← r.defaulted "include" [] (Decode.list Decode.text)
  let unresolvable ← r.defaulted "unresolvable" [] (Decode.list Decode.text)
  return { bundle, displayName, language, excluded, external, included, unresolvable }

/-- The first text that stands again after the given ones or itself. -/
def firstRepeat? (seen : List String) : List String → Option String
  | [] => none
  | s :: rest => if seen.contains s then some s else firstRepeat? (s :: seen) rest

def parse (text : String) : Except SettingsFlaw Settings :=
  match (Toml.parse? text).bind (ofJson? true) with
  | none => .error .unreadable
  | some settings =>
      match firstRepeat? [] (settings.external.map ExternalSource.bundle) with
      | some bundle => .error (.duplicateBundle bundle)
      | none => .ok settings

/-- The title of the root page if no module supplies one. -/
def rootTitle (s : Settings) : String := s.displayName.getD s.bundle

/-- Whether a file is read: its path starts in one of the ways that are included, if any are named,
and in none of those that are excluded. -/
def reads (s : Settings) (path : String) : Bool :=
  (s.included.isEmpty || s.included.any (Text.startsWith · path))
    && !s.excluded.any (Text.startsWith · path)

/-- Whether links into a module are expected to fail. -/
def isUnresolvable (s : Settings) (module : String) : Bool := s.unresolvable.contains module

end Settings

end Concordance
