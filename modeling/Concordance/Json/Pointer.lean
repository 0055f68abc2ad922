import Concordance.Json.Basic
import Concordance.Text.Blank

/-! # JSON pointers

A place in a value as a list of tokens, one per level, and its text: each token
after a slash, with slashes and tildes escaped.
-/

namespace Concordance.Pointer

def escapeChar (c : Char) : List Char :=
  if c == '~' then ['~', '0'] else if c == '/' then ['~', '1'] else [c]

/-- A token as it stands in a pointer. -/
def escape (token : List Char) : List Char :=
  token.flatMap escapeChar

/-- The token that a piece of a pointer stands for. A tilde that escapes nothing is itself. -/
def unescape : List Char → List Char
  | '~' :: '1' :: rest => '/' :: unescape rest
  | '~' :: '0' :: rest => '~' :: unescape rest
  | c :: rest => c :: unescape rest
  | [] => []

def text (tokens : List String) : String :=
  String.ofList (tokens.flatMap fun token => '/' :: escape token.toList)

/-- The tokens of a pointer's text, which is empty or starts with a slash. -/
def tokens? (pointer : List Char) : Option (List String) :=
  match pointer with
  | [] => some []
  | '/' :: rest => some ((rest.splitOn '/').map fun piece => String.ofList (unescape piece))
  | _ => none

/-- The largest size of an array. -/
def largestIndex : Nat := Nat.pow 2 64 - 1

/-- The number that a run of digits writes, if it is an index. -/
def digitsIndex? (digits : List Char) : Option Nat :=
  if digits.isEmpty || !digits.all Char.isDigit then none
  else
    let n := digits.foldl (fun n c => n * 10 + (c.toNat - '0'.toNat)) 0
    if n ≤ largestIndex then some n else none

/-- The index that a token names on the way to a place: no sign and no leading zero. -/
def index? (token : String) : Option Nat :=
  match token.toList with
  | '0' :: _ :: _ => none
  | digits => digitsIndex? digits

/-- The index that the last token of a change names: a plus sign and zeros may lead. -/
def lastIndex? (token : String) : Option Nat :=
  match token.toList with
  | '+' :: digits => digitsIndex? digits
  | digits => digitsIndex? digits

def editItem {ε : Type} (missing : ε) (f : Json → Except ε Json) :
    Nat → List Json → Except ε (List Json)
  | _, [] => .error missing
  | 0, item :: rest => (f item).map (· :: rest)
  | n + 1, item :: rest => (editItem missing f n rest).map (item :: ·)

def editMember {ε : Type} (missing : ε) (f : Json → Except ε Json) (name : String) :
    List (String × Json) → Except ε (List (String × Json))
  | [] => .error missing
  | (k, v) :: rest =>
      if k == name then (f v).map fun v => (k, v) :: rest
      else (editMember missing f name rest).map ((k, v) :: ·)

/-- Replace the value at a place by what a function makes of it. -/
def edit {ε : Type} (missing : ε) (f : Json → Except ε Json) :
    List String → Json → Except ε Json
  | [], j => f j
  | token :: tokens, .object members =>
      (editMember missing (edit missing f tokens) token members).map .object
  | token :: tokens, .array items =>
      match index? token with
      | some n => (editItem missing (edit missing f tokens) n items).map .array
      | none => .error missing
  | _ :: _, _ => .error missing

end Concordance.Pointer
