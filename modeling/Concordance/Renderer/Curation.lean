import Concordance.Atlas.Basic
import Concordance.Text.Distance

/-! # Curation

Pages that no author has put into a group are grouped by their roles, in a fixed
order of roles, and roles outside of it follow by name.
-/

namespace Concordance.Curation

/-- The roles that have a place in the order, with the titles of their groups. -/
def order : List (String × String) := [
  ("article", "Articles"),
  ("project", "Tutorials"),
  ("class", "Classes"),
  ("protocol", "Protocols"),
  ("struct", "Structures"),
  ("enum", "Enumerations"),
  ("typealias", "Type Aliases"),
  ("associatedtype", "Associated Types"),
  ("case", "Enumeration Cases"),
  ("init", "Initializers"),
  ("deinit", "Deinitializers"),
  ("property", "Instance Properties"),
  ("method", "Instance Methods"),
  ("subscript", "Subscripts"),
  ("type.property", "Type Properties"),
  ("type.method", "Type Methods"),
  ("type.subscript", "Type Subscripts"),
  ("func.op", "Operators"),
  ("func", "Functions"),
  ("var", "Variables"),
  ("ivar", "Instance Variables"),
  ("macro", "Macros"),
  ("extension", "Extensions")]

/-- Order by title, then by address. -/
def le (a b : Page) : Bool :=
  (compareLex (compareOn Page.title) (compareOn Page.address) a b).isLE

/-- Roles without a place in the order, each once, by name. A group of such a role has the role for
its title. -/
def otherRoles (pages : List Page) : List (String × String) :=
  let others := (pages.map Page.role).filter fun role => (order.lookup role).isNone
  (Text.dropRepeats (others.mergeSort fun a b => (compare a b).isLE)).map fun role => (role, role)

/-- The pages of a role, in order. -/
def ofRole (pages : List Page) (role : String) : List Page :=
  (pages.filter fun p => p.role == role).mergeSort le

/-- The groups of pages, with their titles. No group is empty. -/
def groups (pages : List Page) : List (String × List Page) :=
  ((order ++ otherRoles pages).map fun (role, title) => (title, ofRole pages role)).filter
    fun (_, members) => !members.isEmpty

end Concordance.Curation
