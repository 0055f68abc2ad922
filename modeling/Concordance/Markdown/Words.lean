import Concordance.Grammar.Place
import Concordance.Markdown.CharNames
import Concordance.Markdown.Margin

/-! # Finding words

The tokens that are told by their characters alone. Of the tokens sought at a place the
longest one is taken.
-/

namespace Concordance.Markdown

open Grammar (Place)

namespace Words

/-- Punctuation that has a token of its own. -/
def punctuation : Char → Token
  | '[' => .openBracket
  | ']' => .closeBracket
  | '<' => .less
  | '>' => .greater
  | '\x22' => .doubleQuote
  | '\x27' => .singleQuote
  | ',' => .comma
  | '-' => .hyphen
  | ':' => .colon
  | '\x7b' => .openBrace
  | '|' => .bar
  | '\x7d' => .closeBrace
  | '(' => .openParen
  | ')' => .closeParen
  | _ => .mark

def isHexDigit (c : Char) : Bool :=
  c.isDigit || ('a' ≤ c && c ≤ 'f') || ('A' ≤ c && c ≤ 'F')

/-- A row of digits, at least one and at most a number of them, and a semicolon: how many characters
there are. -/
def digits? (isDigit : Char → Bool) (most : Nat) (s : List Char) : Option Nat :=
  let row := s.takeWhile isDigit
  if 1 ≤ row.length && row.length ≤ most && (s.drop row.length).head? == some ';' then
    some (row.length + 1)
  else none

/-- A character by its number, from behind its ampersand and number sign: how many characters there
are. -/
def charNumber? : List Char → Option Nat
  | 'x' :: rest => (digits? isHexDigit 6 rest).map (· + 1)
  | 'X' :: rest => (digits? isHexDigit 6 rest).map (· + 1)
  | s => digits? Char.isDigit 7 s

/-- A character by its name, from behind its ampersand: how many characters there are. -/
def entity? (s : List Char) : Option Nat :=
  let name := (s.take 40).takeWhile Char.isAlphanum
  if (s.drop name.length).head? == some ';' && CharName.isKnown name then some (name.length + 1)
  else none

def isWordChar (c : Char) : Bool :=
  !(isMark c || isGap c || isBreak c || c == '\x00')

/-- The tokens that a text may begin with, with the numbers of their characters, longer ones
first. -/
def candidates : List Char → List (Token × Nat)
  | '\\' :: c :: _ => (if isMark c then [(.escape, 2)] else []) ++ [(.mark, 1)]
  | '&' :: '#' :: rest =>
      ((charNumber? rest).map fun n => (.charNumber, n + 2)).toList ++ [(.mark, 1)]
  | '&' :: rest => ((entity? rest).map fun n => (.entity, n + 1)).toList ++ [(.mark, 1)]
  | '[' :: c :: ']' :: _ =>
      (if c == 'x' || c == 'X' then [(.checkedBox, 3)] else [])
        ++ (if isGap c then [(.emptyBox, 3)] else []) ++ [(.openBracket, 1)]
  | '-' :: '-' :: '>' :: _ => [(.commentEnd, 3), (.hyphen, 1)]
  | '?' :: '>' :: _ => [(.instructionEnd, 2), (.mark, 1)]
  | ']' :: ']' :: '>' :: _ => [(.charDataEnd, 3), (.closeBracket, 1)]
  | c :: rest =>
      if isMark c then [(punctuation c, 1)]
      else if isGap c then [(.gap, 1 + (rest.takeWhile isGap).length)]
      else if isWordChar c then [(.word, 1 + (rest.takeWhile isWordChar).length)]
      else []
  | [] => []

end Words

/-- The token at a place that is told by its characters alone, and its end. -/
def wordToken (valid : Token → Bool) (here : Place) : Option (Token × Place) :=
  ((Words.candidates here.rest).find? fun c => valid c.1).map fun (token, length) =>
    (token, here.skip length)

end Concordance.Markdown
