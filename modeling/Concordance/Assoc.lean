/-! # Association lists in key order

Finite maps as lists of keys with their values, the keys rising. Equal maps are
equal lists, and what a map holds can be listed without choosing an order.
-/

namespace Concordance

abbrev Assoc (κ ν : Type) := List (κ × ν)

namespace Assoc

variable {κ ν : Type}

def get? [BEq κ] (m : Assoc κ ν) (key : κ) : Option ν :=
  List.lookup key m

def has [BEq κ] (m : Assoc κ ν) (key : κ) : Bool :=
  (m.get? key).isSome

def keys (m : Assoc κ ν) : List κ := m.map Prod.fst

/-- The values in the order of their keys. -/
def values (m : Assoc κ ν) : List ν := m.map Prod.snd

/-- Give a key a value, at its place in the order. An earlier value of the key is replaced. -/
def put [Ord κ] (m : Assoc κ ν) (key : κ) (value : ν) : Assoc κ ν :=
  match m with
  | [] => [(key, value)]
  | (k, v) :: rest =>
      match compare key k with
      | .lt => (key, value) :: (k, v) :: rest
      | .eq => (key, value) :: rest
      | .gt => (k, v) :: put rest key value

/-- Give a key a value unless it has one. -/
def putNew [BEq κ] [Ord κ] (m : Assoc κ ν) (key : κ) (value : ν) : Assoc κ ν :=
  if m.has key then m else m.put key value

def erase [BEq κ] (m : Assoc κ ν) (key : κ) : Assoc κ ν :=
  m.filter fun (k, _) => k != key

/-- The map that a list of pairs describes; of several values for one key the last counts. -/
def ofList [Ord κ] (pairs : List (κ × ν)) : Assoc κ ν :=
  pairs.foldl (fun m (key, value) => m.put key value) []

/-- The map that a list of pairs describes; of several values for one key the first counts. -/
def ofListFirst [BEq κ] [Ord κ] (pairs : List (κ × ν)) : Assoc κ ν :=
  pairs.foldl (fun m (key, value) => m.putNew key value) []

end Assoc

end Concordance
