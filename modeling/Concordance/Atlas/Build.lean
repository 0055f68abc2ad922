import Concordance.Atlas.Gather
import Concordance.Atlas.Lookup
import Concordance.Settings

/-! # Building the atlas

Modules come first, then symbols level by level, so that every page has its address
before the pages below it, then the relations between symbols, then documents.
What cannot be used is declined with a problem, and the rest is built all the same.
-/

namespace Concordance

structure Inputs where
  documents : List Document := []
  symbolGraphs : List SymbolGraphFile := []
  deriving Repr, DecidableEq

structure AtlasBuild where
  atlas : Atlas
  /-- What was declined so far. -/
  problems : List Problem := []
  deriving Repr, DecidableEq

/-- The place of symbols of one name: the page above them, and their name. -/
structure OverloadPlace where
  parent : Address
  name : String
  deriving Repr, DecidableEq

instance : Ord OverloadPlace :=
  ⟨compareLex (compareOn OverloadPlace.parent) (compareOn OverloadPlace.name)⟩

namespace AtlasBuild

def decline (b : AtlasBuild) (message source : String) : AtlasBuild :=
  { b with problems := b.problems ++ [.warning message source] }

/-- Insert a page, or decline it if its address is taken. -/
def insert (b : AtlasBuild) (p : Page) : AtlasBuild :=
  match b.atlas.insert? p with
  | some atlas => { b with atlas }
  | none =>
      let problem : Problem :=
        { message := s!"duplicate page `{p.address.pathText}`", source := p.source }
      { b with problems := b.problems ++ [problem] }

def modulePage (bundle language module : String) : Page where
  address := { bundle, path := [module] }
  kind := .module
  name := module
  humanPath := [module]
  parent := none
  content := .symbol (SymbolContent.ofModule language module)

/-- Insert the root page of a module, unless there is one. -/
def addModule (language : String) (b : AtlasBuild) (module : String) : AtlasBuild :=
  match b.atlas.insert? (modulePage b.atlas.bundle language module) with
  | some atlas => { b with atlas }
  | none => b

/-- The text of the human path above a symbol. -/
def pathAbove (s : GatheredSymbol) : String := "/".intercalate s.humanPath.dropLast

/-- The page above a symbol: that of its owner, or else the only one of the human path above it. -/
def parentOf (atlas : Atlas) (s : GatheredSymbol) : Except String Address :=
  match s.owner.bind atlas.byPrecise.get? with
  | some owner => .ok owner
  | none =>
      match (atlas.byHumanPath.get? (pathAbove s)).getD [] with
      | [only] => .ok only
      | [] => .error s!"symbol `{s.precise}` has no parent at `{pathAbove s}`"
      | _ => .error s!"symbol `{s.precise}` has an ambiguous parent at `{pathAbove s}`"

abbrev Overloads := Assoc OverloadPlace (List GatheredSymbol)

/-- Find the place of a symbol, or decline it. -/
def assign (state : AtlasBuild × Overloads) (s : GatheredSymbol) : AtlasBuild × Overloads :=
  let (b, overloads) := state
  match parentOf b.atlas s with
  | .ok parent =>
      let place : OverloadPlace := ⟨parent, s.name⟩
      (b, overloads.put place ((overloads.get? place).getD [] ++ [s]))
  | .error message => (b.decline message s.source, overloads)

def symbolPage (parent : Address) (component : String) (s : GatheredSymbol) : Page where
  address := { bundle := parent.bundle, path := parent.path ++ [component] }
  kind := .symbol
  name := s.name
  humanPath := s.humanPath
  parent := some parent
  distinction := some s.distinction
  source := some s.source
  content := .symbol s.content

/-- Insert the symbols of one place. -/
def addOverloads (b : AtlasBuild) (place : OverloadPlace) (members : List GatheredSymbol) :
    AtlasBuild :=
  let components := Distinction.components place.name (members.map GatheredSymbol.distinction)
  (members.zip components).foldl
    (fun b (s, component) => b.insert (symbolPage place.parent component s)) b

def placeLevel (b : AtlasBuild) (level : List GatheredSymbol) : AtlasBuild :=
  let (b, overloads) := level.foldl assign (b, [])
  overloads.foldl (fun b (place, members) => b.addOverloads place members) b

/-- Place symbols that are in order, one level after the other. -/
def placeSymbols (b : AtlasBuild) (symbols : List GatheredSymbol) : AtlasBuild :=
  (symbols.splitBy fun s t => s.humanPath.length == t.humanPath.length).foldl placeLevel b

/-- The link to the other symbol of a relation: to its page, or else to be resolved by its path. -/
def relationTarget? (atlas : Atlas) (r : GatheredRelation) : Option Link :=
  match atlas.byPrecise.get? r.target with
  | some address => some { destination := .resolved address }
  | none => do
      let fallback ← r.fallback
      let title := (Text.pieces '.' fallback).getLastD ""
      let path := String.ofList (Text.replaceChar '.' ['/'] fallback.toList)
      match WrittenLink.parse path with
      | .ok link => some (.written link (some title))
      | .error _ => none

def addRelation (r : Relation) : Content → Content
  | .symbol c => .symbol { c with relations := c.relations ++ [r] }
  | c => c

/-- State a relation on the page of its symbol. -/
def relate (b : AtlasBuild) (r : GatheredRelation) : AtlasBuild :=
  match relationTarget? b.atlas r, b.atlas.byPrecise.get? r.source with
  | some target, some source =>
      { b with atlas := b.atlas.editContent source (addRelation ⟨r.kind, target⟩) }
  | _, _ => b

/-- Insert the modules and symbols of what was gathered, and state the relations. -/
def addGathering (language : String) (b : AtlasBuild) (g : Gathering) : AtlasBuild :=
  let b := { b with problems := b.problems ++ g.problems }
  let b := g.modules.foldl (addModule language) b
  g.relations.foldl relate (b.placeSymbols g.inOrder)

/-- The kind of page that a document's content makes. -/
def documentKind : Content → PageKind
  | .article _ _ => .article
  | .redirect _ _ => .redirect
  | .symbol _ => .symbol
  | .tutorial _ => .tutorial

def documentPage (root : Address) (d : Document) (content : Content) : Page where
  address := { bundle := root.bundle, path := root.path ++ [d.name] }
  kind := documentKind content
  name := d.name
  humanPath := root.path ++ [d.name]
  parent := some root
  source := some d.path
  content := content

/-- An extension and the file it comes from. -/
structure Extension where
  source : String
  /-- The symbol it extends. -/
  target : WrittenLink
  /-- What it adds. -/
  docs : Markup
  deriving Repr, DecidableEq

/-- Insert the page that a document turned out to be, decline the document, or put an extension
aside. -/
def addParsed (root : Address) (state : AtlasBuild × List Extension) (d : Document) :
    Except MalformedDocument ParsedDocument → AtlasBuild × List Extension
  | .error m => (state.1.decline m.message d.path, state.2)
  | .ok (.page content) => (state.1.insert (documentPage root d content), state.2)
  | .ok (.extension target docs) => (state.1, state.2 ++ [⟨d.path, target, docs⟩])

def addDocument (root : Address) (state : AtlasBuild × List Extension) (d : Document) :
    AtlasBuild × List Extension :=
  addParsed root state d d.parse

/-- What an extension extends: looked up from the roots and then, unless the path is absolute, below
the root page of documents. -/
def extended (atlas : Atlas) (root : Address) (target : WrittenLink) : Lookup :=
  match atlas.lookup none target.components with
  | .notFound =>
      if target.absolute then .notFound else atlas.lookup (some root) target.components
  | found => found

def addDocs (docs : Markup) : Content → Content
  | .symbol c => .symbol { c with docs := c.docs.extend docs }
  | c => c

/-- Merge an extension into the page of its symbol, or decline it. -/
def extend (root : Address) (b : AtlasBuild) (e : Extension) : AtlasBuild :=
  match extended b.atlas root e.target with
  | .found p =>
      match p.content with
      | .symbol _ => { b with atlas := b.atlas.editContent p.address (addDocs e.docs) }
      | _ =>
          b.decline s!"extension target `{e.target.text}` is a {p.kind.name}, not a symbol" e.source
  | .ambiguous addresses =>
      b.decline (s!"extension target `{e.target.text}` is ambiguous: "
        ++ ", ".intercalate (addresses.map Address.pathText)) e.source
  | .notFound => b.decline s!"extension target `{e.target.text}` doesn't exist" e.source

/-- Add documents that are in order, extensions last. -/
def addDocuments (root : Address) (b : AtlasBuild) (documents : List Document) : AtlasBuild :=
  let (b, extensions) := documents.foldl (addDocument root) (b, [])
  extensions.foldl (extend root) b

/-- The module that documents belong to: the first one, or one named by the settings. -/
def homeModule (settings : Settings) (g : Gathering) : String :=
  g.modules.headD settings.rootTitle

end AtlasBuild

namespace Atlas

/-- Build the atlas of a project, with the problems found on the way. -/
def build (settings : Settings) (inputs : Inputs) : Atlas × List Problem :=
  let g := Gathering.ofFiles settings.language inputs.symbolGraphs
  let home := AtlasBuild.homeModule settings g
  let b : AtlasBuild := { atlas := { bundle := settings.bundle } }
  let b := (b.addGathering settings.language g).addModule settings.language home
  let documents := inputs.documents.mergeSort fun d e => FilePath.le d.path e.path
  let b := b.addDocuments { bundle := settings.bundle, path := [home] } documents
  (b.atlas, b.problems)

end Atlas

end Concordance
