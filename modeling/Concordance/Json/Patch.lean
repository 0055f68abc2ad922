import Concordance.Json.Pointer
import Concordance.Json.Decoder

/-! # Patches of JSON values

Changes to a value, each at a place given by a pointer, and the changes that turn
one value into another: `apply base (delta base variant)` is `variant`.
-/

namespace Concordance

inductive Change where
  /-- Put a value into an object or an array. -/
  | add (pointer : String) (value : Json)
  /-- Take a value out of its object or array. -/
  | remove (pointer : String)
  /-- Put a value in the place of another. -/
  | replace (pointer : String) (value : Json)

/-- Changes in the order in which they are made. -/
abbrev Patch := List Change

inductive PatchFlaw where
  /-- The pointer of a replacement names nothing. -/
  | nothingToReplace
  | noSuchKey
  | indexOutOfRange
  /-- The pointer goes through a value that has no parts. -/
  | notContainer
  /-- The pointer has no last token. -/
  | noParent
  /-- What the pointer's last token is looked for in does not exist. -/
  | missingParent
  /-- A token that is no index, in an array. -/
  | notIndex
  deriving Repr, DecidableEq

def PatchFlaw.message : PatchFlaw → String
  | nothingToReplace => "nothing to replace"
  | noSuchKey => "no such key"
  | indexOutOfRange => "index out of range"
  | notContainer => "parent is not a container"
  | noParent => "pointer has no parent"
  | missingParent => "parent does not exist"
  | notIndex => "not an array index"

structure PatchFailure where
  pointer : String
  flaw : PatchFlaw
  deriving Repr, DecidableEq

def PatchFailure.message (f : PatchFailure) : String :=
  s!"patch failed at `{f.pointer}`: {f.flaw.message}"

namespace Change

def pointer : Change → String
  | add pointer _ | remove pointer | replace pointer _ => pointer

/-- The member of an operation's JSON form that names the operation. -/
def tag : String := "op"

def json : Change → Json
  | add pointer value =>
      .object [(tag, .string "add"), ("path", .string pointer), ("value", value)]
  | remove pointer => .object [(tag, .string "remove"), ("path", .string pointer)]
  | replace pointer value =>
      .object [(tag, .string "replace"), ("path", .string pointer), ("value", value)]

def ofJson? (j : Json) : Option Change := do
  match ← Decode.tagged tag [] j with
  | ("add", rest) =>
      let r ← Decode.record ["path", "value"] rest
      return add (← r.required "path" Decode.text) (← r.required "value" Decode.value)
  | ("remove", rest) =>
      let r ← Decode.record ["path"] rest
      return remove (← r.required "path" Decode.text)
  | ("replace", rest) =>
      let r ← Decode.record ["path", "value"] rest
      return replace (← r.required "path" Decode.text) (← r.required "value" Decode.value)
  | _ => none

/-- The index of a place in an array of a given size, the place after its end included. -/
def arrayIndex (token : String) (size : Nat) : Except PatchFlaw Nat :=
  match Pointer.lastIndex? token with
  | none => .error .notIndex
  | some n => if n ≤ size then .ok n else .error .indexOutOfRange

def removePart (token : String) : Json → Except PatchFlaw Json
  | .object members =>
      if Assoc.has members token then .ok (.object (Assoc.erase members token))
      else .error .noSuchKey
  | .array items => do
      let n ← arrayIndex token items.length
      if n == items.length then .error .indexOutOfRange
      else .ok (.array (items.eraseIdx n))
  | _ => .error .notContainer

/-- Put a part into a value; the token of a place after an array's end may be a hyphen. -/
def addPart (token : String) (value : Json) : Json → Except PatchFlaw Json
  | .object members => .ok (.object (Assoc.put members token value))
  | .array items =>
      if token == "-" then .ok (.array (items ++ [value]))
      else do
        let n ← arrayIndex token items.length
        .ok (.array (items.insertIdx n value))
  | _ => .error .notContainer

/-- Change the value that holds the place a pointer names, given the pointer's last token. -/
def editParent (pointer : String) (f : String → Json → Except PatchFlaw Json) (j : Json) :
    Except PatchFlaw Json :=
  match Text.cutLast? '/' pointer.toList with
  | none => .error .noParent
  | some (parent, last) =>
      match Pointer.tokens? parent with
      | none => .error .missingParent
      | some tokens =>
          Pointer.edit .missingParent (f (String.ofList (Pointer.unescape last))) tokens j

def applyTo (j : Json) : Change → Except PatchFlaw Json
  | replace pointer value =>
      match Pointer.tokens? pointer.toList with
      | none => .error .nothingToReplace
      | some tokens => Pointer.edit .nothingToReplace (fun _ => .ok value) tokens j
  | remove pointer => editParent pointer removePart j
  | add pointer value => editParent pointer (addPart · value) j

end Change

namespace Patch

def json (patch : Patch) : Json := .array (patch.map Change.json)

def ofJson? (j : Json) : Option Patch := Decode.list Change.ofJson? j

/-- Make the changes of a patch, one after the other. -/
def apply (j : Json) : Patch → Except PatchFailure Json
  | [] => .ok j
  | change :: rest =>
      match change.applyTo j with
      | .ok next => apply next rest
      | .error flaw => .error ⟨change.pointer, flaw⟩

/-- Append the items from an index on. -/
def appends (place : List String) : Nat → List Json → Patch
  | _, [] => []
  | n, item :: rest =>
      .add (Pointer.text (place ++ [toString n])) item :: appends place (n + 1) rest

/-- Take out the items from the last of `count` many down to an index. -/
def truncations (place : List String) (start count : Nat) : Patch :=
  (List.range count).reverse.map fun k => .remove (Pointer.text (place ++ [toString (start + k)]))

/-- Take out the members that the other object does not have. -/
def removals (place : List String) (base variant : List (String × Json)) : Patch :=
  (base.filter fun (name, _) => !Assoc.has variant name).map fun (name, _) =>
    .remove (Pointer.text (place ++ [name]))

/-- Put in the members that the first object does not have. -/
def additions (place : List String) (base variant : List (String × Json)) : Patch :=
  (variant.filter fun (name, _) => !Assoc.has base name).map fun (name, value) =>
    .add (Pointer.text (place ++ [name])) value

mutual

/-- The changes that turn one value into another at a place. -/
def deltaAt (place : List String) (base variant : Json) : Patch :=
  if base.same variant then []
  else match base, variant with
    | .object bs, .object vs =>
        removals place bs vs ++ (deltaMembers place vs bs ++ additions place bs vs)
    | .array bs, .array vs => deltaItems place 0 bs vs
    | _, v => [.replace (Pointer.text place) v]

/-- The changes within members of one name, in the first object's order. -/
def deltaMembers (place : List String) (variant : List (String × Json)) :
    List (String × Json) → Patch
  | [] => []
  | (name, value) :: rest =>
      (match Assoc.get? variant name with
        | some other => deltaAt (place ++ [name]) value other
        | none => []) ++ deltaMembers place variant rest

/-- The changes within items of one index, and then those at the longer array's end. -/
def deltaItems (place : List String) : Nat → List Json → List Json → Patch
  | n, b :: bs, v :: vs =>
      deltaAt (place ++ [toString n]) b v ++ deltaItems place (n + 1) bs vs
  | n, [], vs => appends place n vs
  | n, bs, [] => truncations place n bs.length

end

def delta (base variant : Json) : Patch :=
  deltaAt [] base variant

end Patch

end Concordance
