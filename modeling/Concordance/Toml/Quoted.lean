import Concordance.Text.Blank

/-! # Writing strings of TOML

A text is written in the plainest form that can hold it: in double quotes without
escapes, in single quotes, over several lines, and with escapes last.
-/

namespace Concordance.Toml

/-- A form that a string is written in. -/
inductive StringForm where
  /-- Double quotes on one line. -/
  | basic
  /-- Single quotes on one line. -/
  | literal
  /-- Three double quotes. -/
  | longBasic
  /-- Three single quotes. -/
  | longLiteral
  deriving Repr, DecidableEq

/-- Characters that have to be escaped in every form. -/
def needsEscape (c : Char) : Bool :=
  (c.toNat < 0x20 && c != '\t' && c != '\n') || c.toNat == 0x7F

/-- The length of the longest run of a character, given that of the run that ends here. -/
def longestRun (mark : Char) (run : Nat) : List Char → Nat
  | [] => run
  | c :: rest =>
      if c == mark then longestRun mark (run + 1) rest else max run (longestRun mark 0 rest)

def plainestForm (s : List Char) : StringForm :=
  let escapes := s.any needsEscape
  let broken := s.contains '\n'
  let backslash := s.contains '\x5c'
  if !escapes && !backslash && !s.contains '\x22' && !broken then .basic
  else if !escapes && !s.contains '\x27' && !broken then .literal
  else if !escapes && !backslash && longestRun '\x22' 0 s ≤ 2 then .longBasic
  else if !escapes && longestRun '\x27' 0 s ≤ 2 then .longLiteral
  else if broken then .longBasic
  else .basic

/-- A number as hexadecimal digits of a given count, in upper case. -/
def hexDigits (count n : Nat) : List Char :=
  (List.range count).reverse.map fun k => (Nat.digitChar (n / Nat.pow 16 k % 16)).toUpper

/-- A character other than a quote and a line feed in a form with escapes. -/
def escaped (c : Char) : List Char :=
  if c == '\x08' then ['\x5c', 'b']
  else if c == '\t' then ['\x5c', 't']
  else if c == '\x0c' then ['\x5c', 'f']
  else if c == '\r' then ['\x5c', 'r']
  else if c == '\x5c' then ['\x5c', '\x5c']
  else if c.toNat < 0x20 || c.toNat == 0x7F then '\x5c' :: 'u' :: hexDigits 4 c.toNat
  else [c]

/-- A text between double quotes. On one line every quote and line feed is escaped; over several
lines every third quote of a run, given how many were passed since the last one escaped. -/
def escapedText (long : Bool) (quotes : Nat) : List Char → List Char
  | [] => []
  | c :: rest =>
      if c == '\x22' then
        if !long || quotes == 2 then '\x5c' :: c :: escapedText long 0 rest
        else c :: escapedText long (quotes + 1) rest
      else if c == '\n' then
        (if long then ['\n'] else ['\x5c', 'n']) ++ escapedText long 0 rest
      else escaped c ++ escapedText long 0 rest

/-- The line break after the opening quotes of a text that has line breaks. -/
def openingBreak (s : List Char) : List Char :=
  if s.contains '\n' then ['\n'] else []

def writtenIn (form : StringForm) (s : List Char) : List Char :=
  match form with
  | .basic => '\x22' :: escapedText false 0 s ++ ['\x22']
  | .literal => '\x27' :: s ++ ['\x27']
  | .longBasic =>
      let quotes := List.replicate 3 '\x22'
      quotes ++ openingBreak s ++ escapedText true 0 s ++ quotes
  | .longLiteral =>
      let quotes := List.replicate 3 '\x27'
      quotes ++ openingBreak s ++ s ++ quotes

/-- A string of TOML. -/
def quoted (s : String) : String :=
  String.ofList (writtenIn (plainestForm s.toList) s.toList)

end Concordance.Toml
