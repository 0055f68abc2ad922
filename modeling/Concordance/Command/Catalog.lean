import Concordance.Disk.Basic
import Concordance.Json.Reader
import Concordance.Project
import Concordance.Text.FilePath

/-! # Reading a project from its disk

The settings come first, then the symbol graphs and the documents in order of
their paths, and then the summaries that other bundles have published.
-/

namespace Concordance

/-- Why a command cannot be carried out. -/
inductive CommandFailure where
  | settings (flaw : SettingsFlaw)
  | lock (flaw : LockFlaw)
  | link (cause : MalformedLink)
  | missingFile (path : String)
  | missingLock (path : String)
  | unreadableFile (path : String)
  | unwritableFile (path : String)
  /-- A file is not in the form that it should have. -/
  | malformedFile (path : String)
  | unknownPage (path : String)
  deriving Repr, DecidableEq

def CommandFailure.message : CommandFailure → String
  | settings flaw => flaw.message
  | lock flaw => flaw.message
  | link cause => cause.message
  | missingFile path => s!"file not found: {path}"
  | missingLock path => s!"lockfile not found: {path}"
  | unreadableFile path => s!"io: cannot read {path}"
  | unwritableFile path => s!"io: cannot write {path}"
  | malformedFile path => s!"json: cannot decode {path}"
  | unknownPage path => s!"no page at `{path}`"

namespace Catalog

variable {m : Type → Type} [Monad m]

/-- The directory of the project. -/
def root : String := "."

def settingsFile : String := ".docweave.toml"

def symbolGraphSuffix : String := ".symbols.json"

def isHidden (name : String) : Bool := Text.startsWith "." name

/-- The paths of the files that may belong to a project, in order. -/
def paths (files : List (List String)) : List String :=
  ((files.filter fun names => !names.any isHidden).mergeSort fun a b => (compare a b).isLE).map
    ("/".intercalate ·)

/-- Read a file that has to be there. -/
def readFile (disk : Disk m) (path : String) : ExceptT CommandFailure m String := do
  match ← disk.read path with
  | .ok text => return text
  | .error .missing => throw (.missingFile path)
  | .error .unreadable => throw (.unreadableFile path)

/-- Read the settings. A project without them has the standard ones. -/
def readSettings (disk : Disk m) : ExceptT CommandFailure m Settings := do
  let path := FilePath.join root settingsFile
  match ← disk.read path with
  | .ok text =>
      match Settings.parse text with
      | .ok settings => return settings
      | .error flaw => throw (.settings flaw)
  | .error .missing => return {}
  | .error .unreadable => throw (.unreadableFile path)

/-- Read a file into the inputs, if it is a symbol graph or a document. -/
def readInput (disk : Disk m) (inputs : Inputs) (name : String) :
    ExceptT CommandFailure m Inputs := do
  let path := FilePath.join root name
  if Text.endsWith symbolGraphSuffix name then
    match SymbolGraph.parse? (← readFile disk path) with
    | some graph => return { inputs with symbolGraphs := inputs.symbolGraphs ++ [⟨path, graph⟩] }
    | none => throw (.malformedFile path)
  else if FilePath.extension? name == some "md" then
    let source ← readFile disk path
    return { inputs with documents := inputs.documents ++ [⟨path, source⟩] }
  else return inputs

def readInputs (disk : Disk m) (settings : Settings) : ExceptT CommandFailure m Inputs := do
  let files ← disk.files
  ((paths files).filter settings.reads).foldlM (readInput disk) {}

/-- Read what another bundle has published. -/
def readExternal (disk : Disk m) (source : ExternalSource) :
    ExceptT CommandFailure m External := do
  let path := FilePath.join root source.entities
  match (Json.parse? (← readFile disk path)).bind Entity.listOfJson? with
  | some entities =>
      return External.ofEntities source.bundle source.modules entities source.assets
  | none => throw (.malformedFile path)

def readProject (disk : Disk m) : ExceptT CommandFailure m Project := do
  let settings ← readSettings disk
  let inputs ← readInputs disk settings
  let externals ← settings.external.mapM (readExternal disk)
  return Project.ofInputs settings inputs externals

end Catalog

end Concordance
