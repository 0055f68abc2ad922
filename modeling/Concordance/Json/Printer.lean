import Concordance.Json.Basic

/-! # Writing JSON text

Values as text, either without any blanks or laid out over lines with an indent of
two. Members are written in the order they have.
-/

namespace Concordance.Json

def hexChar (n : Nat) : Char := Nat.digitChar n

/-- A character inside a text literal. Quotes, backslashes and control characters are escaped. -/
def escapeChar (c : Char) : List Char :=
  if c == '\x22' then ['\x5c', '\x22']
  else if c == '\x5c' then ['\x5c', '\x5c']
  else if c == '\x08' then ['\x5c', 'b']
  else if c == '\t' then ['\x5c', 't']
  else if c == '\n' then ['\x5c', 'n']
  else if c == '\x0c' then ['\x5c', 'f']
  else if c == '\r' then ['\x5c', 'r']
  else if c.toNat < 0x20 then
    ['\x5c', 'u', '0', '0', hexChar (c.toNat / 16), hexChar (c.toNat % 16)]
  else [c]

def quoted (s : String) : List Char :=
  '\x22' :: s.toList.flatMap escapeChar ++ ['\x22']

def numberChars : Number → List Char
  | .whole n => (toString n).toList
  | .double x => x.text.toList

def leafChars : Json → List Char
  | .bool true => "true".toList
  | .bool false => "false".toList
  | .number n => numberChars n
  | .string s => quoted s
  | _ => "null".toList

mutual

/-- A value without any blanks. -/
def compactChars : Json → List Char
  | .array items => '[' :: compactItems items ++ [']']
  | .object members => '\x7b' :: compactMembers members ++ ['\x7d']
  | .null => leafChars .null
  | .bool b => leafChars (.bool b)
  | .number n => leafChars (.number n)
  | .string s => leafChars (.string s)
  | .unreadable => leafChars .unreadable

def compactItems : List Json → List Char
  | [] => []
  | [item] => compactChars item
  | item :: rest => compactChars item ++ ',' :: compactItems rest

def compactMembers : List (String × Json) → List Char
  | [] => []
  | [(name, value)] => quoted name ++ ':' :: compactChars value
  | (name, value) :: rest =>
      quoted name ++ ':' :: compactChars value ++ ',' :: compactMembers rest

end

def newLine (depth : Nat) : List Char :=
  '\n' :: List.replicate (2 * depth) ' '

mutual

/-- A value over lines, at a depth. -/
def prettyChars (depth : Nat) : Json → List Char
  | .array [] => "[]".toList
  | .array (item :: items) =>
      '[' :: newLine (depth + 1) ++ prettyItems (depth + 1) (item :: items)
        ++ newLine depth ++ [']']
  | .object [] => ['\x7b', '\x7d']
  | .object (m :: members) =>
      '\x7b' :: newLine (depth + 1) ++ prettyMembers (depth + 1) (m :: members)
        ++ newLine depth ++ ['\x7d']
  | .null => leafChars .null
  | .bool b => leafChars (.bool b)
  | .number n => leafChars (.number n)
  | .string s => leafChars (.string s)
  | .unreadable => leafChars .unreadable

def prettyItems (depth : Nat) : List Json → List Char
  | [] => []
  | [item] => prettyChars depth item
  | item :: rest => prettyChars depth item ++ ',' :: newLine depth ++ prettyItems depth rest

def prettyMembers (depth : Nat) : List (String × Json) → List Char
  | [] => []
  | [(name, value)] => quoted name ++ ':' :: ' ' :: prettyChars depth value
  | (name, value) :: rest =>
      quoted name ++ ':' :: ' ' :: prettyChars depth value ++ ',' :: newLine depth
        ++ prettyMembers depth rest

end

/-- The text without any blanks. -/
def compact (j : Json) : String := String.ofList (compactChars j)

def pretty (j : Json) : String := String.ofList (prettyChars 0 j)

end Concordance.Json
