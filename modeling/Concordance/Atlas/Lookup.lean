import Concordance.Atlas.Basic
import Concordance.Text.Distance

/-! # Looking pages up

A path is followed component by component from a page or from the roots. No choice
is ever made between several pages that fit.
-/

namespace Concordance

/-- What looking a path up gives. -/
inductive Lookup where
  /-- Several pages, in order. -/
  | ambiguous (addresses : List Address)
  | found (page : Page)
  | notFound
  deriving Repr, DecidableEq

namespace Atlas

/-- Addresses in order, each once. -/
def sortedSet (addresses : List Address) : List Address :=
  Text.dropRepeats (addresses.mergeSort Address.le)

def fitsReading (a : Atlas) (reading : Component.Reading) (address : Address) : Bool :=
  match a.pages.get? address with
  | none => false
  | some p =>
      p.name == reading.1 && match reading.2 with
        | none => true
        | some suffix => p.distinction.any fun d => d.fits suffix

/-- The candidates that fit the first reading that any of them fits. -/
def fitting (a : Atlas) (candidates : List Address) : List Component.Reading → List Address
  | [] => []
  | reading :: rest =>
      match candidates.filter (a.fitsReading reading) with
      | [] => fitting a candidates rest
      | found => sortedSet found

def matching (a : Atlas) (candidates : List Address) (component : String) : List Address :=
  a.fitting candidates (Component.readings component)

def follow (a : Atlas) (candidates : List Address) : List String → List Address
  | [] => []
  | [component] => a.matching candidates component
  | component :: rest => follow a ((a.matching candidates component).flatMap a.children) rest

/-- The pages that a path starts from: those below a page, or the roots. -/
def startingPages (a : Atlas) (scope : Option Address) : List Address :=
  match scope with
  | some address => a.children address
  | none => a.roots

/-- Look a path up below a page, or from the roots. -/
def lookup (a : Atlas) (scope : Option Address) (components : List String) : Lookup :=
  match a.follow (a.startingPages scope) components with
  | [] => .notFound
  | [address] =>
      match a.pages.get? address with
      | some p => .found p
      | none => .notFound
  | addresses => .ambiguous addresses

def withSuffix (suffix : String) : List String → List String
  | [] => []
  | [component] => [component ++ "-" ++ suffix]
  | component :: rest => component :: withSuffix suffix rest

/-- Look a written path up from the roots, with a suffix for its last component. -/
def lookupText (a : Atlas) (path : String) (suffix : Option String) : Lookup :=
  match WrittenLink.parse path with
  | .error _ => .notFound
  | .ok link =>
      a.lookup none (match suffix with
        | some suffix => withSuffix suffix link.components
        | none => link.components)

end Atlas

end Concordance
