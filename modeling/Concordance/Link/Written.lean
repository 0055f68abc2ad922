import Concordance.Link.Component

/-! # Links as written

The grammar of link texts: symbol names, slash-separated paths, topic
identifiers with or without a bundle, and web addresses.
-/

namespace Concordance

/-- The surface form that a link is written in. -/
inductive LinkForm where
  /-- One bare name. -/
  | symbol
  /-- Several names separated by slashes, or one name after a slash. -/
  | path
  /-- A topic identifier. -/
  | topic
  /-- A web address, which is never resolved. -/
  | url
  deriving Repr, DecidableEq

/-- Why a text is no link. -/
inductive LinkFlaw where
  /-- Nothing but blanks. -/
  | empty
  /-- A topic identifier that names no bundle. -/
  | noBundle
  /-- A topic link that names no page. -/
  | noPage
  /-- A path without any component. -/
  | noSymbol
  /-- A link where an identifier is wanted. -/
  | notIdentifier
  deriving Repr, DecidableEq

def LinkFlaw.message : LinkFlaw → String
  | empty => "empty link"
  | noBundle => "topic identifier has no bundle"
  | noPage => "topic link names no page"
  | noSymbol => "link names no symbol"
  | notIdentifier => "not a doc:// identifier"

structure MalformedLink where
  /-- The text at fault. -/
  text : String
  flaw : LinkFlaw
  deriving Repr, DecidableEq

def MalformedLink.message (m : MalformedLink) : String :=
  s!"malformed reference `{m.text}`: {m.flaw.message}"

/-- A cross-reference read from its text, not yet resolved. -/
structure WrittenLink where
  /-- Whether it is read from the roots, whatever page it stands on. -/
  absolute : Bool
  /-- The bundle that a topic identifier names. -/
  bundle : Option String
  /-- The components of its path, without any scheme or root. -/
  components : List String
  /-- The heading it names within a page, as written. -/
  fragment : Option String
  /-- The text without the blanks around it. -/
  text : String
  form : LinkForm
  deriving Repr, DecidableEq

namespace WrittenLink

def topicScheme : String := "doc"

/-- The root under which identifiers and addresses keep pages. -/
def documentationRoot : String := "documentation"

/-- The root under which addresses keep tutorials. -/
def tutorialsRoot : String := "tutorials"

/-- Cut a fragment off a path. An empty fragment is none. -/
def cutFragment (s : List Char) : List Char × Option String :=
  match Text.cut? '#' s with
  | none => (s, none)
  | some (path, []) => (path, none)
  | some (path, fragment) => (path, some (String.ofList fragment))

/-- Components without a leading root of the site. -/
def dropRoot : List String → List String
  | [] => []
  | c :: rest => if c == documentationRoot || c == tutorialsRoot then rest else c :: rest

/-- Read what follows the scheme of a topic identifier. -/
def ofIdentifierBody (text : String) (body : List Char) : Except MalformedLink WrittenLink :=
  let (location, fragment) := cutFragment body
  let (bundle, path) := (Text.cut? '/' location).getD (location, [])
  if bundle.isEmpty then .error ⟨text, .noBundle⟩
  else .ok {
    absolute := true
    bundle := some (String.ofList bundle)
    components := dropRoot (Component.cut path)
    fragment
    text
    form := .topic }

/-- Read what follows the scheme of a topic link. -/
def ofTopicBody (raw text : String) (body : List Char) : Except MalformedLink WrittenLink :=
  let (path, fragment) := cutFragment body
  let components := Component.cut path
  if components.isEmpty then .error ⟨raw, .noPage⟩
  else .ok {
    absolute := path.head? == some '/'
    bundle := none
    components, fragment, text
    form := .topic }

/-- Read a symbol name or a path. -/
def ofPath (raw text : String) (body : List Char) : Except MalformedLink WrittenLink :=
  let (path, fragment) := cutFragment body
  let components := Component.cut path
  let absolute := path.head? == some '/'
  if components.isEmpty then .error ⟨raw, .noSymbol⟩
  else .ok {
    absolute
    bundle := none
    components, fragment, text
    form := if components.length == 1 && !absolute then .symbol else .path }

def ofUrl (text : String) : WrittenLink where
  absolute := true
  bundle := none
  components := []
  fragment := none
  text := text
  form := .url

/-- Whether a text is a web address: it names a scheme, or is a mail address. -/
def isUrlText (s : List Char) : Bool :=
  Text.occurs "://".toList s || (Text.stripStart? "mailto:".toList s).isSome

def parse (raw : String) : Except MalformedLink WrittenLink :=
  let trimmed := Text.trimChars raw.toList
  let text := String.ofList trimmed
  if trimmed.isEmpty then .error ⟨raw, .empty⟩
  else match Text.stripStart? "doc://".toList trimmed with
    | some body => ofIdentifierBody text body
    | none => match Text.stripStart? "doc:".toList trimmed with
      | some body => ofTopicBody raw text body
      | none =>
          if isUrlText trimmed then .ok (ofUrl text)
          else ofPath raw text trimmed

/-- The path as written, without its fragment. -/
def displayPath (link : WrittenLink) : String :=
  "/".intercalate link.components

def isUrl (link : WrittenLink) : Bool :=
  link.form == .url

end WrittenLink

end Concordance
