import Concordance.Atlas.Distinction
import Concordance.Document
import Concordance.Problem
import Concordance.SymbolGraph

/-! # Gathering symbols

The descriptions of a symbol in several files and languages are merged into one,
and the edges between symbols are sorted by what they mean.
-/

namespace Concordance

namespace SymbolContent

/-- Exchange a presentation with the first of the others that is in a language. -/
def exchange (language : String) (p : Presentation) :
    List Presentation → Presentation × List Presentation
  | [] => (p, [])
  | v :: rest =>
      if v.language == language then (v, p :: rest)
      else
        let (q, others) := exchange language p rest
        (q, v :: others)

/-- Make a language primary if the symbol has it. -/
def preferLanguage (language : String) (c : SymbolContent) : SymbolContent :=
  if c.primary.language == language then c
  else
    let (primary, variants) := exchange language c.primary c.variants
    { c with primary, variants }

/-- The languages of the symbol, the primary one first. -/
def languages (c : SymbolContent) : List String :=
  c.primary.language :: c.variants.map Presentation.language

/-- Add a presentation, and keep the preferred language primary. -/
def addPresentation (preferred : String) (p : Presentation) (c : SymbolContent) : SymbolContent :=
  { c with variants := c.variants ++ [p] }.preferLanguage preferred

/-- The content that a symbol's first description gives. -/
def ofDescription (module : String) (s : SymbolDescription) : SymbolContent where
  precise := s.precise
  kind := s.kind
  module := module
  primary := s.presentation
  docs := match s.commentText with
    | some text => Markup.ofComment text
    | none => {}
  availability := s.availability

/-- The content of a module's root page. -/
def ofModule (language module : String) : SymbolContent where
  precise := module
  kind := ⟨"Framework", "module"⟩
  module := module
  primary := ⟨language, module, ""⟩

end SymbolContent

/-- A symbol that has no page yet. -/
structure GatheredSymbol where
  /-- What its page is to hold. -/
  content : SymbolContent
  /-- The module, and the symbol's path in it. -/
  humanPath : List String
  /-- The symbol that it is a member of. -/
  owner : Option String := none
  /-- The file it comes from. -/
  source : String
  deriving Repr, DecidableEq

namespace GatheredSymbol

def precise (s : GatheredSymbol) : String := s.content.precise

def name (s : GatheredSymbol) : String := s.humanPath.getLastD ""

def distinction (s : GatheredSymbol) : Distinction :=
  Distinction.ofSymbol s.content.precise s.content.kind.identifier

/-- Order by the length of the path, the path and the unique identifier. -/
def le (s t : GatheredSymbol) : Bool :=
  (compareLex (compareOn fun s => s.humanPath.length)
    (compareLex (compareOn humanPath) (compareOn precise)) s t).isLE

end GatheredSymbol

/-- A relation between symbols, as an edge states it. -/
structure GatheredRelation where
  kind : RelationKind
  /-- The symbol it is stated of. -/
  source : String
  target : String
  /-- The path of the other symbol, with dots. -/
  fallback : Option String
  deriving Repr, DecidableEq

/-- What was gathered from symbol graphs. -/
structure Gathering where
  /-- The modules, in the order in which they came. -/
  modules : List String := []
  symbols : Assoc String GatheredSymbol := []
  /-- The relations, in the order in which they came. -/
  relations : List GatheredRelation := []
  /-- What was declined. -/
  problems : List Problem := []
  deriving Repr, DecidableEq

namespace Gathering

def decline (g : Gathering) (message path : String) : Gathering :=
  { g with problems := g.problems ++ [.warning message path] }

def addModule (g : Gathering) (module : String) : Gathering :=
  if g.modules.contains module then g else { g with modules := g.modules ++ [module] }

/-- Add a description: the first of a symbol, or its presentation in a further language. -/
def addSymbol (preferred path module : String) (g : Gathering) (s : SymbolDescription) :
    Gathering :=
  match s.malformed? path with
  | some m => g.decline m.message path
  | none =>
      match g.symbols.get? s.precise with
      | none =>
          let symbol : GatheredSymbol :=
            { content := (SymbolContent.ofDescription module s).preferLanguage preferred
              humanPath := module :: s.path
              source := path }
          { g with symbols := g.symbols.put s.precise symbol }
      | some known =>
          if known.content.languages.contains s.language then
            g.decline s!"duplicate symbol `{s.precise}` in {s.language}" path
          else
            let content := known.content.addPresentation preferred s.presentation
            { g with symbols := g.symbols.put s.precise { known with content } }

/-- Add an edge. A membership counts if its symbol was described before and has no owner yet. -/
def addEdge (g : Gathering) (e : SymbolEdge) : Gathering :=
  if e.kind == "memberOf" then
    match g.symbols.get? e.source with
    | some s =>
        { g with symbols := g.symbols.put e.source { s with owner := s.owner.or (some e.target) } }
    | none => g
  else match RelationKind.ofIdentifier? e.kind with
    | some kind =>
        { g with relations := g.relations ++ [⟨kind, e.source, e.target, e.targetFallback⟩] }
    | none => g

/-- Add a file: its module, its symbols, and then its edges. -/
def addFile (preferred : String) (g : Gathering) (file : SymbolGraphFile) : Gathering :=
  let module := file.graph.module
  let g := file.graph.symbols.foldl (addSymbol preferred file.path module) (g.addModule module)
  file.graph.edges.foldl addEdge g

def ofFiles (preferred : String) (files : List SymbolGraphFile) : Gathering :=
  files.foldl (addFile preferred) {}

/-- The symbols in the order in which they are placed. -/
def inOrder (g : Gathering) : List GatheredSymbol := g.symbols.values.mergeSort GatheredSymbol.le

end Gathering

end Concordance
