import Concordance.Json.Basic

/-! # Reading JSON text

A reader of the JSON grammar. What the grammar admits but no value stands for, a
number out of range or half a surrogate pair, is read as `Json.unreadable`, so
that only those who look at it have to refuse it.
-/

namespace Concordance.Json

/-- Blanks between the tokens of JSON. -/
def isSpace (c : Char) : Bool :=
  c == ' ' || c == '\n' || c == '\t' || c == '\r'

/-- What follows the blanks. -/
def skipSpace (s : List Char) : List Char :=
  s.dropWhile isSpace

def hexDigit? (c : Char) : Option Nat :=
  if '0' ≤ c && c ≤ '9' then some (c.toNat - '0'.toNat)
  else if 'a' ≤ c && c ≤ 'f' then some (c.toNat - 'a'.toNat + 10)
  else if 'A' ≤ c && c ≤ 'F' then some (c.toNat - 'A'.toNat + 10)
  else none

def hexUnit? (a b c d : Char) : Option Nat := do
  return (((← hexDigit? a) * 16 + (← hexDigit? b)) * 16 + (← hexDigit? c)) * 16 + (← hexDigit? d)

inductive TextPiece where
  /-- A character that stands for itself or is escaped by a letter. -/
  | plain (c : Char)
  /-- A numbered escape: a code point, or half of a surrogate pair. -/
  | numbered (code : Nat)

/-- The character that a letter after a backslash stands for. -/
def letterEscape? (c : Char) : Option Char :=
  if c == '\x22' || c == '\x5c' || c == '/' then some c
  else if c == 'b' then some '\x08'
  else if c == 'f' then some '\x0c'
  else if c == 'n' then some '\n'
  else if c == 'r' then some '\r'
  else if c == 't' then some '\t'
  else none

/-- The pieces of a text literal after its opening quote, and what follows its closing one. -/
def textPieces : List Char → Option (List TextPiece × List Char)
  | '\x22' :: rest => some ([], rest)
  | '\x5c' :: 'u' :: a :: b :: c :: d :: rest => do
      let code ← hexUnit? a b c d
      let (pieces, rest) ← textPieces rest
      some (.numbered code :: pieces, rest)
  | '\x5c' :: e :: rest => do
      let c ← letterEscape? e
      let (pieces, rest) ← textPieces rest
      some (.plain c :: pieces, rest)
  | c :: rest =>
      if c.toNat < 0x20 then none
      else do
        let (pieces, rest) ← textPieces rest
        some (.plain c :: pieces, rest)
  | [] => none

/-- Whether a code is the first half of a surrogate pair. -/
def isHighHalf (code : Nat) : Bool := 0xD800 ≤ code && code ≤ 0xDBFF

/-- Whether a code is the second half of a surrogate pair. -/
def isLowHalf (code : Nat) : Bool := 0xDC00 ≤ code && code ≤ 0xDFFF

/-- The text that pieces make up, unless a surrogate pair lacks a half. -/
def joinPieces? : List TextPiece → Option (List Char)
  | [] => some []
  | .plain c :: rest => (joinPieces? rest).map (c :: ·)
  | .numbered high :: .numbered low :: rest =>
      if isHighHalf high then
        if isLowHalf low then
          let code := 0x10000 + (high - 0xD800) * 0x400 + (low - 0xDC00)
          (joinPieces? rest).map (Char.ofNat code :: ·)
        else none
      else if isLowHalf high then none
      else (joinPieces? (.numbered low :: rest)).map (Char.ofNat high :: ·)
  | .numbered code :: rest =>
      if isHighHalf code || isLowHalf code then none
      else (joinPieces? rest).map (Char.ofNat code :: ·)

/-- The largest whole number of sixty-four bits. -/
def largestWhole : Nat := Nat.pow 2 64 - 1

/-- Append digits to a number while it stays within sixty-four bits: the number, and how many
digits were taken. -/
def takeDigits (n : Nat) : List Char → Nat × Nat
  | [] => (n, 0)
  | c :: rest =>
      let next := n * 10 + (c.toNat - '0'.toNat)
      if next > largestWhole then (n, 0)
      else
        let (m, taken) := takeDigits next rest
        (m, taken + 1)

structure NumberText where
  negative : Bool
  /-- The digits before the point. -/
  whole : List Char
  /-- The digits after the point. -/
  fraction : Option (List Char)
  exponent : Option Int

/-- The value of a number. Digits beyond sixty-four bits count only by their place. -/
def NumberText.value (t : NumberText) : Json :=
  let (n, taken) := takeDigits 0 t.whole
  let skipped := t.whole.length - taken
  let (m, places) := takeDigits n (t.fraction.getD [])
  let asDouble : Json :=
    match Double.ofDecimal? t.negative m ((skipped : Int) - places + t.exponent.getD 0) with
    | some x => .number (.double x)
    | none => .unreadable
  if t.fraction.isSome || t.exponent.isSome || skipped > 0 then asDouble
  else if !t.negative then .whole n
  else if 0 < n && n ≤ Nat.pow 2 63 then .whole (-n)
  else asDouble

/-- Digits at the start, at least one, and what follows them. -/
def digits? (s : List Char) : Option (List Char × List Char) :=
  match s.span Char.isDigit with
  | ([], _) => none
  | found => some found

def digitsValue (digits : List Char) : Nat :=
  digits.foldl (fun n c => n * 10 + (c.toNat - '0'.toNat)) 0

/-- The digits after a point, if there is a point. -/
def fractionPart? : List Char → Option (Option (List Char) × List Char)
  | '.' :: rest => do
      let (digits, rest) ← digits? rest
      some (some digits, rest)
  | s => some (none, s)

/-- The exponent after its mark, if there is a mark. -/
def exponentPart? : List Char → Option (Option Int × List Char)
  | c :: rest =>
      if c == 'e' || c == 'E' then do
        let (negative, rest) := match rest with
          | '+' :: rest => (false, rest)
          | '-' :: rest => (true, rest)
          | rest => (false, rest)
        let (digits, rest) ← digits? rest
        let n : Int := digitsValue digits
        some (some (if negative then -n else n), rest)
      else some (none, c :: rest)
  | [] => some (none, [])

def readNumber (s : List Char) : Option (Json × List Char) := do
  let (negative, s) := match s with
    | '-' :: rest => (true, rest)
    | s => (false, s)
  let (whole, s) ← digits? s
  if whole.length > 1 && whole.head? == some '0' then none
  else
    let (fraction, s) ← fractionPart? s
    let (exponent, s) ← exponentPart? s
    some (NumberText.value ⟨negative, whole, fraction, exponent⟩, s)

def readWord (word : String) (value : Json) (s : List Char) : Option (Json × List Char) :=
  let w := word.toList
  if s.take w.length == w then some (value, s.drop w.length) else none

/-- An object of members whose names are all readable. -/
def ofMembers (members : List (Option String × Json)) : Json :=
  match members.mapM fun (name, value) => name.map (·, value) with
  | some members => .object members
  | none => .unreadable

mutual

/-- Read a value, by recursion on an amount that exceeds the nesting and length of the text. -/
def readValue : Nat → List Char → Option (Json × List Char)
  | 0, _ => none
  | fuel + 1, s =>
      match skipSpace s with
      | '[' :: rest =>
          match skipSpace rest with
          | ']' :: rest => some (.array [], rest)
          | rest => (readItems fuel rest).map fun (items, rest) => (.array items, rest)
      | '\x7b' :: rest =>
          match skipSpace rest with
          | '\x7d' :: rest => some (.object [], rest)
          | rest => (readMembers fuel rest).map fun (members, rest) => (ofMembers members, rest)
      | '\x22' :: rest => do
          let (pieces, rest) ← textPieces rest
          match joinPieces? pieces with
          | some cs => some (.string (String.ofList cs), rest)
          | none => some (.unreadable, rest)
      | 't' :: rest => readWord "true" (.bool true) ('t' :: rest)
      | 'f' :: rest => readWord "false" (.bool false) ('f' :: rest)
      | 'n' :: rest => readWord "null" .null ('n' :: rest)
      | s => readNumber s

/-- Read the items of an array, up to and with its closing bracket. -/
def readItems : Nat → List Char → Option (List Json × List Char)
  | 0, _ => none
  | fuel + 1, s => do
      let (item, rest) ← readValue fuel s
      match skipSpace rest with
      | ',' :: rest =>
          let (items, rest) ← readItems fuel rest
          some (item :: items, rest)
      | ']' :: rest => some ([item], rest)
      | _ => none

/-- Read the members of an object, up to and with its closing brace. -/
def readMembers : Nat → List Char → Option (List (Option String × Json) × List Char)
  | 0, _ => none
  | fuel + 1, s =>
      match skipSpace s with
      | '\x22' :: rest => do
          let (pieces, rest) ← textPieces rest
          let name := (joinPieces? pieces).map String.ofList
          match skipSpace rest with
          | ':' :: rest =>
              let (value, rest) ← readValue fuel rest
              match skipSpace rest with
              | ',' :: rest =>
                  let (members, rest) ← readMembers fuel rest
                  some ((name, value) :: members, rest)
              | '\x7d' :: rest => some ([(name, value)], rest)
              | _ => none
          | _ => none
      | _ => none

end

/-- Read a text that holds one value. -/
def parse? (text : String) : Option Json :=
  let s := text.toList
  match readValue (2 * s.length + 2) s with
  | some (value, rest) => if (skipSpace rest).isEmpty then some value else none
  | none => none

end Concordance.Json
