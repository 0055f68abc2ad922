import Concordance.Json.Basic

/-! # Decoding JSON values

Records are read from objects or from arrays of their fields in order. Fields that
are not known are passed over, and a known field that stands twice is refused.
-/

namespace Concordance.Decode

def text : Json → Option String
  | .string s => some s
  | _ => none

def truth : Json → Option Bool
  | .bool b => some b
  | _ => none

/-- Read a whole number below 256. -/
def byte : Json → Option Nat
  | .number (.whole n) => if 0 ≤ n && n < 256 then some n.toNat else none
  | _ => none

/-- Read any value, in canonical form. -/
def value (j : Json) : Option Json := some j.canonical

/-- Read a value that may be null. -/
def nullable {α : Type} (item : Json → Option α) : Json → Option (Option α)
  | .null => some none
  | j => (item j).map some

def list {α : Type} (item : Json → Option α) : Json → Option (List α)
  | .array items => items.mapM item
  | _ => none

def map {α : Type} (item : Json → Option α) : Json → Option (Assoc String α)
  | .object members =>
      (members.mapM fun (m : String × Json) => (item m.2).map fun a => (m.1, a)).map Assoc.ofList
  | _ => none

/-- The fields found of a record. -/
structure Record where
  /-- The fields that are known, in the order found. -/
  fields : List (String × Json)
  /-- Whether they were found by position, in an array. -/
  positional : Bool

def distinctNames : List (String × Json) → Bool
  | [] => true
  | (name, _) :: rest => !rest.any (fun (other, _) => other == name) && distinctNames rest

/-- The known fields among members, each at most once. -/
def recordOfMembers (names : List String) (members : List (String × Json)) : Option Record :=
  let fields := members.filter fun (name, _) => names.contains name
  if distinctNames fields then some ⟨fields, false⟩ else none

/-- Items as the first fields of a record. Items past its last field are passed over if a surplus
is allowed. -/
def recordOfItems (surplus : Bool) (names : List String) (items : List Json) : Option Record :=
  if surplus || items.length ≤ names.length then some ⟨names.zip items, true⟩ else none

/-- The fields of a record of the given names, in an array perhaps with a surplus of items. -/
def looseRecord (surplus : Bool) (names : List String) : Json → Option Record
  | .object members => recordOfMembers names members
  | .array items => recordOfItems surplus names items
  | _ => none

/-- The fields of a record of the given names. -/
def record (names : List String) (j : Json) : Option Record := looseRecord false names j

/-- The fields of a record that has no others, in an array perhaps with a surplus of items. -/
def closedRecord (surplus : Bool) (names : List String) : Json → Option Record
  | .object members =>
      if members.all fun (name, _) => names.contains name then recordOfMembers names members
      else none
  | j => looseRecord surplus names j

/-- The name of an alternative: written out, or its position among those that are numbered. -/
def alternative (numbered : List String) : Json → Option String
  | .string name => some name
  | .number (.whole n) => if 0 ≤ n then numbered[n.toNat]? else none
  | _ => none

/-- A choice that names its alternative in one field: the name, and the other members or items. -/
def tagged (tag : String) (numbered : List String) : Json → Option (String × Json)
  | .object members =>
      match members.filter fun (name, _) => name == tag with
      | [(_, choice)] =>
          (alternative numbered choice).map fun name =>
            (name, .object (members.filter fun (other, _) => other != tag))
      | _ => none
  | .array (choice :: items) => (alternative numbered choice).map fun name => (name, .array items)
  | _ => none

namespace Record

variable {α : Type}

/-- A field that has to be there. -/
def required (r : Record) (name : String) (item : Json → Option α) : Option α :=
  (r.fields.lookup name).bind item

/-- A field that has a value of its own when it is missing. -/
def defaulted (r : Record) (name : String) (missing : α) (item : Json → Option α) : Option α :=
  match r.fields.lookup name with
  | none => some missing
  | some j => item j

/-- A field that may be missing from an object, and may be null. -/
def optional (r : Record) (name : String) (item : Json → Option α) : Option (Option α) :=
  match r.fields.lookup name with
  | none => if r.positional then none else some none
  | some j => nullable item j

end Record

end Concordance.Decode
