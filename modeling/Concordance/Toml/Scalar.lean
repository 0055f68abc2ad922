import Concordance.Json.Basic
import Concordance.Text.Blank

/-! # Scalars of TOML

Strings in their four forms, numbers and dates. A value without a counterpart among
JSON values, such as an infinite number, is `Json.unreadable`. A date or a time of day
is read as a table of one entry, its text.
-/

namespace Concordance.Toml

/-- A space or a tab. -/
def isGap (c : Char) : Bool := c == ' ' || c == '\t'

/-- A control character that may not stand in any text, even in a comment. -/
def isControl (c : Char) : Bool :=
  (c.toNat < 0x20 && c != '\t') || c.toNat == 0x7F

/-! ## Strings -/

def hexDigit? (c : Char) : Option Nat :=
  if c.isDigit then some (c.toNat - '0'.toNat)
  else if 'a' ≤ c && c ≤ 'f' then some (c.toNat - 'a'.toNat + 10)
  else if 'A' ≤ c && c ≤ 'F' then some (c.toNat - 'A'.toNat + 10)
  else none

def numberedChar? (digits : List Char) : Option Char := do
  let values ← digits.mapM hexDigit?
  let n := values.foldl (fun n d => n * 16 + d) 0
  if n < 0x110000 && !(0xD800 ≤ n && n ≤ 0xDFFF) then some (Char.ofNat n) else none

/-- The character of an escape after its backslash, and what follows. -/
def escape? : List Char → Option (Char × List Char)
  | 'b' :: rest => some ('\x08', rest)
  | 't' :: rest => some ('\t', rest)
  | 'n' :: rest => some ('\n', rest)
  | 'f' :: rest => some ('\x0c', rest)
  | 'r' :: rest => some ('\r', rest)
  | '\x22' :: rest => some ('\x22', rest)
  | '\x5c' :: rest => some ('\x5c', rest)
  | 'u' :: rest =>
      if 4 ≤ rest.length then (numberedChar? (rest.take 4)).map (·, rest.drop 4) else none
  | 'U' :: rest =>
      if 8 ≤ rest.length then (numberedChar? (rest.take 8)).map (·, rest.drop 8) else none
  | _ => none

/-- The quotes at the end of a string over several lines: up to two more than the three that close
it belong to the string. -/
def closingQuotes? (quote : Char) (s : List Char) : Option (List Char × List Char) :=
  let quotes := s.takeWhile (· == quote)
  if quotes.length < 3 then none
  else
    let inside := min (quotes.length - 3) 2
    some (List.replicate inside quote, s.drop (inside + 3))

/-- What follows gaps and line ends. -/
def dropBlanks : List Char → List Char
  | [] => []
  | '\r' :: '\n' :: rest => dropBlanks rest
  | c :: rest => if isGap c || c == '\n' then dropBlanks rest else c :: rest

/-- What follows a backslash at the end of a line and the blanks that begin the next ones. -/
def afterFoldedLine? (s : List Char) : Option (List Char) :=
  match s.dropWhile isGap with
  | '\n' :: rest => some (dropBlanks rest)
  | '\r' :: '\n' :: rest => some (dropBlanks rest)
  | _ => none

/-- The rest of a string in double quotes, on one line or over several. It recurs on an amount that
exceeds the length of the text. -/
def basicRest? (multi : Bool) : Nat → List Char → Option (List Char × List Char)
  | 0, _ => none
  | fuel + 1, s =>
      let more (cs : List Char) (rest : List Char) : Option (List Char × List Char) :=
        (basicRest? multi fuel rest).map fun (body, rest) => (cs ++ body, rest)
      match s with
      | [] => none
      | '\x22' :: rest =>
          if !multi then some ([], rest)
          else match closingQuotes? '\x22' s with
            | some found => some found
            | none => more ['\x22'] rest
      | '\x5c' :: rest =>
          match (if multi then afterFoldedLine? rest else none) with
          | some rest => more [] rest
          | none =>
              match escape? rest with
              | some (c, rest) => more [c] rest
              | none => none
      | '\r' :: '\n' :: rest => if multi then more ['\n'] rest else none
      | c :: rest =>
          if c == '\n' then (if multi then more ['\n'] rest else none)
          else if isControl c then none
          else more [c] rest

/-- The rest of a string in single quotes, on one line or over several. -/
def literalRest? (multi : Bool) : List Char → Option (List Char × List Char)
  | [] => none
  | '\r' :: '\n' :: rest =>
      if multi then (literalRest? multi rest).map fun (body, rest) => ('\n' :: body, rest) else none
  | c :: rest =>
      let more (c : Char) : Option (List Char × List Char) :=
        (literalRest? multi rest).map fun (body, rest) => (c :: body, rest)
      if c == '\x27' then
        if !multi then some ([], rest)
        else match closingQuotes? '\x27' (c :: rest) with
          | some found => some found
          | none => more c
      else if c == '\n' then (if multi then more c else none)
      else if isControl c then none
      else more c

/-- What follows a line end that comes right after the opening quotes. -/
def dropFirstBreak : List Char → List Char
  | '\n' :: rest => rest
  | '\r' :: '\n' :: rest => rest
  | s => s

/-- Read a string; one over several lines only where that is allowed. -/
def readString? (multi : Bool) (s : List Char) : Option (String × List Char) := do
  let (body, rest) ← match s with
    | '\x22' :: '\x22' :: '\x22' :: rest =>
        if multi then basicRest? true (rest.length + 1) (dropFirstBreak rest)
        else some ([], '\x22' :: rest)
    | '\x27' :: '\x27' :: '\x27' :: rest =>
        if multi then literalRest? true (dropFirstBreak rest) else some ([], '\x27' :: rest)
    | '\x22' :: rest => basicRest? false (rest.length + 1) rest
    | '\x27' :: rest => literalRest? false rest
    | _ => none
  return (String.ofList body, rest)

/-! ## Numbers and dates -/

/-- The digits of a number whose underscores stand between digits. -/
def digits? (isDigit : Char → Bool) (s : List Char) : Option (List Char) :=
  let parts := s.splitOn '_'
  if parts.all fun part => !part.isEmpty && part.all isDigit then some parts.flatten else none

/-- Digits without a leading zero. -/
def wholeDigits? (s : List Char) : Option (List Char) := do
  let digits ← digits? Char.isDigit s
  if digits.head? == some '0' && digits.length > 1 then none else some digits

/-- The number that digits write in a base. -/
def number (base : Nat) (digits : List Char) : Nat :=
  digits.foldl (fun n c => n * base + (hexDigit? c).getD 0) 0

def cutSign : List Char → Bool × List Char
  | '-' :: rest => (true, rest)
  | '+' :: rest => (false, rest)
  | s => (false, s)

/-- A whole number of sixty-four bits. -/
def inRange? (n : Int) : Option Json :=
  if -(Nat.pow 2 63 : Int) ≤ n && n < Nat.pow 2 63 then some (.whole n) else none

def integer? (s : List Char) : Option Json :=
  match s with
  | '0' :: 'x' :: rest =>
      (digits? (fun c => (hexDigit? c).isSome) rest).bind (inRange? <| number 16 ·)
  | '0' :: 'o' :: rest =>
      (digits? (fun c => '0' ≤ c && c ≤ '7') rest).bind (inRange? <| number 8 ·)
  | '0' :: 'b' :: rest =>
      (digits? (fun c => c == '0' || c == '1') rest).bind (inRange? <| number 2 ·)
  | s =>
      let (negative, body) := cutSign s
      (wholeDigits? body).bind fun digits =>
        let n : Int := number 10 digits
        inRange? (if negative then -n else n)

/-- A floating-point number, its exponent cut off before. One that is too low counts as negative
infinity, which has no JSON value, and one that is too high is refused. -/
def floatOf? (negative : Bool) (mantissa : List Char) (exponent : Int) : Option Json := do
  let (whole, fraction) ← match Text.cut? '.' mantissa with
    | none => (wholeDigits? mantissa).map (·, [])
    | some (before, after) => do
        some (← wholeDigits? before, ← digits? Char.isDigit after)
  match Double.ofDecimal? negative (number 10 (whole ++ fraction)) (exponent - fraction.length) with
  | some x => return .number (.double x)
  | none => if negative then some .unreadable else none

/-- Read a floating-point number. Those that are not finite have no JSON value. -/
def float? (s : List Char) : Option Json :=
  let (negative, body) := cutSign s
  if body == "inf".toList || body == "nan".toList then some .unreadable
  else
    let mantissa := body.takeWhile fun c => c != 'e' && c != 'E'
    match body.drop mantissa.length with
    | [] => if mantissa.contains '.' then floatOf? negative mantissa 0 else none
    | _ :: power =>
        let (below, digits) := cutSign power
        (digits? Char.isDigit digits).bind fun digits =>
          let n : Int := number 10 digits
          floatOf? negative mantissa (if below then -n else n)

/-- A number of a given count of digits within bounds. -/
def bounded (count low high : Nat) (s : List Char) : Bool :=
  s.length == count && s.all Char.isDigit && low ≤ number 10 s && number 10 s ≤ high

def isLeapYear (year : Nat) : Bool :=
  (year % 4 == 0 && year % 100 != 0) || year % 400 == 0

def daysIn (year month : Nat) : Nat :=
  if month == 2 then (if isLeapYear year then 29 else 28)
  else if [4, 6, 9, 11].contains month then 30
  else 31

def isDate (s : List Char) : Bool :=
  match s.splitOn '-' with
  | [year, month, day] =>
      bounded 4 0 9999 year && bounded 2 1 12 month
        && bounded 2 1 (daysIn (number 10 year) (number 10 month)) day
  | _ => false

def isTime (s : List Char) : Bool :=
  match s.splitOn ':' with
  | [hour, minute, second] =>
      let whole := second.takeWhile (· != '.')
      let fraction := second.drop whole.length
      bounded 2 0 23 hour && bounded 2 0 59 minute && bounded 2 0 60 whole
        && (fraction.isEmpty || (fraction.length > 1 && (fraction.drop 1).all Char.isDigit))
  | _ => false

/-- Whether a text is the distance of a time from universal time. -/
def isOffset (s : List Char) : Bool :=
  match s.splitOn ':' with
  | [hour, minute] => bounded 2 0 23 hour && bounded 2 0 59 minute
  | _ => false

/-- Whether a text is a time of day with or without its distance from universal time. -/
def isZonedTime (s : List Char) : Bool :=
  let time := s.takeWhile fun c => !(['Z', 'z', '+', '-'].contains c)
  isTime time && match s.drop time.length with
    | [] => true
    | c :: rest => if c == 'Z' || c == 'z' then rest.isEmpty else isOffset rest

/-- A time of day with at most nine digits after the point and no zeros at their end. -/
def timeText (s : List Char) : List Char :=
  let whole := s.takeWhile (· != '.')
  let digits := Text.dropEndWhile (· == '0') ((s.drop (whole.length + 1)).take 9)
  if digits.isEmpty then whole else whole ++ '.' :: digits

/-- The distance of a time from universal time; none at all is never negative. -/
def offsetText : List Char → List Char
  | [] => []
  | c :: rest =>
      if c == 'Z' || c == 'z' then ['Z']
      else if rest == "00:00".toList then '+' :: rest
      else c :: rest

/-- A date, a time of day, or both, in its plainest form. -/
def moment? (s : List Char) : Option String :=
  if isDate s then some (String.ofList s)
  else if isTime s then some (String.ofList (timeText s))
  else
    let clock := s.drop 11
    let parted := [some 'T', some 't', some ' '].contains s[10]?
    if isDate (s.take 10) && parted && isZonedTime clock then
      let time := clock.takeWhile fun c => !(['Z', 'z', '+', '-'].contains c)
      some (String.ofList
        (s.take 10 ++ 'T' :: timeText time ++ offsetText (clock.drop time.length)))
    else none

/-- The key under which a date or a time of day stands where a table is wanted. -/
def momentKey : String := "$__toml_private_datetime"

/-- Characters of numbers, dates and words. -/
def isScalarChar (c : Char) : Bool :=
  c.isAlphanum || ['+', '-', '_', '.', ':'].contains c

/-- The scalar at the start of a text. A space may stand between a date and a time of day. -/
def cutScalar (s : List Char) : List Char × List Char :=
  let (first, rest) := s.span isScalarChar
  match rest with
  | ' ' :: c :: more =>
      if isDate first && c.isDigit then
        let (second, rest) := (c :: more).span isScalarChar
        (first ++ ' ' :: second, rest)
      else (first, rest)
  | _ => (first, rest)

/-- The value of a scalar that is no string. -/
def scalar? (s : List Char) : Option Json :=
  if s == "true".toList then some (.bool true)
  else if s == "false".toList then some (.bool false)
  else match moment? s with
    | some text => some (.object [(momentKey, .string text)])
    | none => (integer? s).or (float? s)

end Concordance.Toml
