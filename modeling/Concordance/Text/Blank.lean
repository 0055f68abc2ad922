/-! # Blank characters, lines and cuts

The reading of plain text that every format of this library shares: what counts
as blank, what a line is, and how a text is cut at a character.
-/

namespace Concordance.Text

/-- The white space of Unicode. -/
def isBlank (c : Char) : Bool :=
  let n := c.toNat
  (0x9 ≤ n && n ≤ 0xD) || n == 0x20 || n == 0x85 || n == 0xA0 || n == 0x1680
    || (0x2000 ≤ n && n ≤ 0x200A) || n == 0x2028 || n == 0x2029 || n == 0x202F
    || n == 0x205F || n == 0x3000

def dropEndWhile (p : Char → Bool) (s : List Char) : List Char :=
  (s.reverse.dropWhile p).reverse

def trimChars (s : List Char) : List Char :=
  dropEndWhile isBlank (s.dropWhile isBlank)

def trim (s : String) : String :=
  String.ofList (trimChars s.toList)

def trimEnd (s : String) : String :=
  String.ofList (dropEndWhile isBlank s.toList)

def isBlankText (s : String) : Bool :=
  s.toList.all isBlank

/-- What follows a leading text, if the characters start with it. -/
def stripStart? : List Char → List Char → Option (List Char)
  | [], s => some s
  | _ :: _, [] => none
  | p :: ps, c :: s => if p == c then stripStart? ps s else none

/-- What precedes a closing text, if the characters end with it. -/
def stripEnd? (tail s : List Char) : Option (List Char) :=
  (stripStart? tail.reverse s.reverse).map List.reverse

def startsWith (lead s : String) : Bool :=
  (stripStart? lead.toList s.toList).isSome

def endsWith (tail s : String) : Bool :=
  (stripEnd? tail.toList s.toList).isSome

/-- The text without a leading part, if it starts with it. -/
def dropLead? (lead s : String) : Option String :=
  (stripStart? lead.toList s.toList).map String.ofList

/-- The text without a closing part, if it ends with it. -/
def dropTail? (tail s : String) : Option String :=
  (stripEnd? tail.toList s.toList).map String.ofList

/-- Cut at the first occurrence of a character: what precedes it, and what follows it. -/
def cut? (mark : Char) : List Char → Option (List Char × List Char)
  | [] => none
  | c :: s =>
      if c == mark then some ([], s)
      else (cut? mark s).map fun (before, after) => (c :: before, after)

def cutLast? (mark : Char) (s : List Char) : Option (List Char × List Char) :=
  (cut? mark s.reverse).map fun (after, before) => (before.reverse, after.reverse)

/-- Whether one run of characters occurs inside another. -/
def occurs (part : List Char) : List Char → Bool
  | [] => part.isEmpty
  | c :: s => (stripStart? part (c :: s)).isSome || occurs part s

/-- The pieces between the occurrences of a character, empty ones included. -/
def pieces (mark : Char) (s : String) : List String :=
  (s.toList.splitOn mark).map String.ofList

/-- Cut characters after every line feed; no piece is empty. -/
def lineRuns : List Char → List (List Char)
  | [] => []
  | c :: s =>
      if c == '\n' then [c] :: lineRuns s
      else match lineRuns s with
        | [] => [[c]]
        | run :: runs => (c :: run) :: runs

/-- A line without its line end: a line feed, and a carriage return before it. -/
def dropLineEnd (run : List Char) : List Char :=
  match run.reverse with
  | '\n' :: '\r' :: rest => rest.reverse
  | '\n' :: rest => rest.reverse
  | _ => run

/-- The lines of a text without their ends. A last line end opens no further line. -/
def lines (s : String) : List String :=
  (lineRuns s.toList).map (String.ofList ∘ dropLineEnd)

def replaceChar (c : Char) (by_ : List Char) (s : List Char) : List Char :=
  s.flatMap fun d => if d == c then by_ else [d]

end Concordance.Text
