import Concordance.Command.Catalog
import Concordance.Command.Usage
import Concordance.Lock.Changes
import Concordance.Publication.Files

/-! # Commands

What is done for a request: pages are published, the lock is compared with what is
linked to now, or one link is resolved. Problems of pages are reported, and stop
nothing.
-/

namespace Concordance

/-- What a command says at its end. -/
structure Response where
  /-- The exit code: zero for success, one if something is unresolved or out of date, and two if
  the command cannot be carried out. -/
  exit : Nat := 0
  out : List String := []
  err : List String := []
  deriving Repr, DecidableEq

namespace Response

/-- The response to a command that cannot be carried out. -/
def ofFailure (failure : CommandFailure) (err : List String := []) : Response where
  exit := 2
  err := err ++ ["error: " ++ failure.message]

def outText (r : Response) : String := String.join (r.out.map (· ++ "\n"))

def errText (r : Response) : String := String.join (r.err.map (· ++ "\n"))

end Response

namespace Command

variable {m : Type → Type} [Monad m]

/-- The directory for published files, unless a request names one. -/
def standardOutput : String := ".docweave"

def outputDirectory (output : Option String) : String :=
  output.getD (FilePath.join Catalog.root standardOutput)

/-- A line with headings in bold. -/
def emphasize (line : String) : String :=
  if Text.startsWith "#" line then "\x1b[1m" ++ line ++ "\x1b[0m" else line

def problemLines (problems : List Problem) : List String :=
  problems.flatMap fun p => (Text.lines p.report).map emphasize

/-- Write files one after the other, up to the first that cannot be written. -/
def writeFiles (disk : Disk m) : List (String × String) → m (Option CommandFailure)
  | [] => pure none
  | (path, text) :: rest => do
      if ← disk.write path text then writeFiles disk rest
      else return some (.unwritableFile path)

def convert (disk : Disk m) (output : Option String) : ExceptT CommandFailure m Response := do
  let directory := outputDirectory output
  let publication := (← Catalog.readProject disk).publish
  let err := problemLines publication.problems
  let pages := publication.pages.length
  let references := publication.references.length
  match ← ExceptT.lift (writeFiles disk (publication.files directory)) with
  | some failure => return Response.ofFailure failure err
  | none => return {
      out := [s!"Wrote {pages} pages and {references} references to {directory}"]
      err }

/-- Read the lock of the last publication. -/
def readLock (disk : Disk m) (path : String) : ExceptT CommandFailure m Lock := do
  match ← disk.read path with
  | .error .missing => throw (.missingLock path)
  | .error .unreadable => throw (.unreadableFile path)
  | .ok text =>
      match Lock.parse text with
      | .ok lock => return lock
      | .error flaw => throw (.lock flaw)

def compareLocks (recorded current : Lock) : Response :=
  if current == recorded then
    { out := [s!"All {current.entries.length} external references current"] }
  else {
    exit := 1
    out := recorded.report current ++ ["run `docweave convert` to refresh " ++ Lock.fileName] }

/-- Compare what is linked to now with the lock of the last publication. -/
def check (disk : Disk m) (output : Option String) : ExceptT CommandFailure m Response := do
  let recorded ← readLock disk (FilePath.join (outputDirectory output) Lock.fileName)
  let project ← Catalog.readProject disk
  return compareLocks recorded project.publish.lock

/-- The path of a page as it is written in a request, without slashes around it. -/
def pagePath (path : String) : List String :=
  let isSlash (c : Char) : Bool := c == '/'
  let trimmed := ((path.toList.dropWhile isSlash).reverse.dropWhile isSlash).reverse
  Text.pieces '/' (String.ofList trimmed)

def referrer (project : Project) : Option String → Except CommandFailure (Option Address)
  | none => .ok none
  | some path =>
      let address := project.atlas.address (pagePath path)
      if (project.atlas.page? address).isSome then .ok (some address)
      else .error (.unknownPage path)

/-- Where a page of this or another bundle is shown. -/
def url? (project : Project) (memory : Resolver.Memory) (address : Address) : Option String :=
  match project.atlas.page? address with
  | some page => some page.url
  | none => (project.externals.entity? memory.inquiries address).map Entity.url

def resolution (project : Project) (link : WrittenLink) (referrer : Option Address) : Response :=
  match project.resolver.resolve link referrer {} with
  | (.ok address, memory) =>
      { out := address.identifier :: (url? project memory address).toList }
  | (.error failure, _) =>
      let page := (referrer.map Address.identifier).getD ""
      { exit := 1, err := problemLines [Problem.ofFailure failure page] }

def resolve (disk : Disk m) (text : String) (path : Option String) :
    ExceptT CommandFailure m Response := do
  let project ← Catalog.readProject disk
  match referrer project path with
  | .error failure => throw failure
  | .ok page =>
      match WrittenLink.parse text with
      | .error cause => throw (.link cause)
      | .ok link => return resolution project link page

/-- Look a media file up. -/
def asset (disk : Disk m) (name : String) : ExceptT CommandFailure m Response := do
  let project ← Catalog.readProject disk
  match project.externals.asset? name with
  | some found => return { out := [found.url] }
  | none => return { exit := 1, err := [s!"error: no external bundle serves asset `{name}`"] }

def perform (disk : Disk m) : Request → ExceptT CommandFailure m Response
  | .convert output => convert disk output
  | .check output => check disk output
  | .resolve link referrer => resolve disk link referrer
  | .asset name => asset disk name

def run (disk : Disk m) (args : List String) : m Response :=
  match Request.parse args with
  | .error .help => pure { out := Usage.help }
  | .error (.misuse cause) => pure { exit := 2, err := cause.lines }
  | .ok request => do
      match ← (perform disk request).run with
      | .ok response => return response
      | .error failure => return Response.ofFailure failure

end Command

end Concordance
