import Concordance.Text.Blank

/-! # Components of link paths

A link path is cut into components at its slashes, except inside parentheses and
where a slash opens an operator's name. A component names a page, and may end in
a suffix that tells pages of one name apart.
-/

namespace Concordance.Component

/-- Characters that an operator's name goes on with after its first slash, or that open its
signature. -/
def isOperatorChar (c : Char) : Bool :=
  ['(', '/', '=', '<', '>', '!', '&', '|', '^', '~', '%', '*', '+', '-', '.', '?'].contains c

/-- How deep in parentheses the next character stands. A parenthesis too many closes nothing. -/
def parenDepth (depth : Nat) (c : Char) : Nat :=
  if c == '(' then depth + 1 else if c == ')' then depth - 1 else depth

def emit (current : List Char) : List (List Char) :=
  if current.isEmpty then [] else [current]

/-- Cut the rest of a path, given the depth in parentheses, whether the last character was a
separating slash, and the component read so far. -/
def cutFrom (depth : Nat) (afterSlash : Bool) (current : List Char) : List Char → List (List Char)
  | [] => emit current
  | c :: rest =>
      if c == '/' && depth == 0 then
        if afterSlash && current.isEmpty && rest.head?.any isOperatorChar then
          cutFrom depth false [c] rest
        else
          emit current ++ cutFrom depth true [] rest
      else
        cutFrom (parenDepth depth c) false (current ++ [c]) rest

def cut (path : List Char) : List String :=
  (cutFrom 0 false [] path).map String.ofList

/-- How deep in brackets of any kind the next character stands. -/
def bracketDepth (depth : Nat) (c : Char) : Nat :=
  if ['(', '<', '['].contains c then depth + 1
  else if [')', '>', ']'].contains c then depth - 1
  else depth

/-- What stands before and after each hyphen outside brackets that is not the first character,
leftmost first, after the characters already passed. -/
def hyphenCuts (depth : Nat) (before : List Char) : List Char → List (List Char × List Char)
  | [] => []
  | c :: rest =>
      let later := hyphenCuts (bracketDepth depth c) (before ++ [c]) rest
      if c == '-' && depth == 0 && !before.isEmpty then (before, rest) :: later else later

def isSuffixChar (c : Char) : Bool :=
  c.isAlphanum || c == '.' || c == '_' || c == '-'

/-- What can stand after a hyphen as a hash, a kind, or both. -/
def isSuffix (s : List Char) : Bool :=
  !s.isEmpty && s.head? != some '-' && s.getLast? != some '-' && s.all isSuffixChar

/-- One way to read a component: a name, and perhaps a suffix. -/
abbrev Reading := String × Option String

/-- The reading that a cut at a hyphen gives, if what follows can be a suffix. Further hyphens
between name and suffix belong to neither. -/
def readingOfCut? (cut : List Char × List Char) : Option Reading :=
  let suffix := cut.2.dropWhile (· == '-')
  if isSuffix suffix then some (String.ofList cut.1, some (String.ofList suffix)) else none

/-- Every way to read a component: as a name first, so that names with hyphens come before any
split, and then split at its hyphens, the rightmost first. -/
def readings (component : String) : List Reading :=
  (component, none) :: (hyphenCuts 0 [] component.toList).reverse.filterMap readingOfCut?

end Concordance.Component
