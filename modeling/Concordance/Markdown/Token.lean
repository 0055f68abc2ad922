/-! # Tokens of a document

The smallest pieces of a document. Some are told by their characters alone: words,
gaps and punctuation. The others depend on which blocks are open at their place and
mark where lines end and where blocks begin, go on and end.
-/

namespace Concordance.Markdown

/-- The five ways to mark a list item. -/
inductive ListMark where
  | plus
  | minus
  | star
  /-- A number and a full stop. -/
  | dot
  /-- A number and a closing parenthesis. -/
  | parenthesis
  deriving Repr, DecidableEq

/-- The two characters that fences of code are made of. -/
inductive FenceMark where
  | backtick
  | tilde
  deriving Repr, DecidableEq

/-- The seven kinds of HTML blocks, by what they begin with. -/
inductive HtmlKind where
  /-- An element whose content is not markup. -/
  | raw
  | comment
  | instruction
  | declaration
  | charData
  /-- An element that makes a block of its own. -/
  | blockElement
  /-- Any tag that is alone on its line. -/
  | loneTag
  deriving Repr, DecidableEq

/-- A piece of a document. -/
inductive Token where
  /-- The end of the document. -/
  | finish
  /-- A backslash and the punctuation it escapes. -/
  | escape
  /-- A character by its name. -/
  | entity
  /-- A character by its number. -/
  | charNumber
  | openBracket
  | closeBracket
  | less
  | greater
  /-- Punctuation that has no token of its own. -/
  | mark
  | doubleQuote
  | singleQuote
  | comma
  | hyphen
  | colon
  | openBrace
  | bar
  | closeBrace
  | openParen
  | closeParen
  | commentEnd
  | instructionEnd
  | charDataEnd
  /-- Characters other than gaps and punctuation. -/
  | word
  | checkedBox
  | emptyBox
  /-- Spaces and tabs. -/
  | gap
  /-- The end of a line that ends what stands on it. -/
  | lineEnd
  /-- The end of a line within a paragraph. -/
  | softLineEnd
  /-- The end of the innermost open block. -/
  | blockEnd
  /-- The marks of open blocks at the start of a line. -/
  | continuation
  | quoteMark
  | codeIndent
  | heading1
  | heading2
  | heading3
  | heading4
  | heading5
  | heading6
  | underline1
  | underline2
  /-- A line that divides what stands before and after it. -/
  | divider
  | minusItem
  | plusItem
  | starItem
  | parenthesisItem
  | dotItem
  /-- A hyphen before a list item that cannot end a paragraph, and then the other marks. -/
  | minusItemApart
  | plusItemApart
  | starItemApart
  | parenthesisItemApart
  | dotItemApart
  | backtickOpen
  | tildeOpen
  /-- The start of a blank line. -/
  | blankStart
  | backtickClose
  | tildeClose
  /-- The start of an element whose content is not markup. -/
  | rawOpen
  | rawClose
  | commentOpen
  | instructionOpen
  | declarationOpen
  | charDataOpen
  /-- The start of an HTML element that makes a block. -/
  | elementOpen
  /-- The start of an HTML tag that is alone on its line. -/
  | tagOpen
  /-- A sign that the innermost block ends with its line. -/
  | closing
  /-- A place where indented code cannot begin; it never stands in a document. -/
  | noCode
  /-- A place where nothing fits. -/
  | misfit
  /-- A demand for a misfit; it never stands in a document. -/
  | demand
  /-- The end of a document where a line end might stand. -/
  | finalEnd
  /-- Front matter between lines of hyphens. -/
  | minusFront
  /-- Front matter between lines of plus signs. -/
  | plusFront
  | tableStart
  | tableLineEnd
  deriving Repr, DecidableEq

namespace Token

/-- All tokens in the order of their numbers. -/
def all : List Token := [
  finish, escape, entity, charNumber, openBracket, closeBracket, less, greater, mark, doubleQuote,
  singleQuote, comma, hyphen, colon, openBrace, bar, closeBrace, openParen, closeParen, commentEnd,
  instructionEnd, charDataEnd, word, checkedBox, emptyBox, gap, lineEnd, softLineEnd, blockEnd,
  continuation, quoteMark, codeIndent, heading1, heading2, heading3, heading4, heading5, heading6,
  underline1, underline2, divider, minusItem, plusItem, starItem, parenthesisItem, dotItem,
  minusItemApart, plusItemApart, starItemApart, parenthesisItemApart, dotItemApart, backtickOpen,
  tildeOpen, blankStart, backtickClose, tildeClose, rawOpen, rawClose, commentOpen,
  instructionOpen, declarationOpen, charDataOpen, elementOpen, tagOpen, closing, noCode, misfit,
  demand, finalEnd, minusFront, plusFront, tableStart, tableLineEnd]

/-- The number of a token. -/
def number (t : Token) : Nat := t.ctorIdx

/-- The number of a token is its place among all of them. -/
theorem all_number (t : Token) : all[t.number]? = some t := by
  cases t <;> rfl

/-- Whether a token depends on the open blocks. -/
def isStructural (t : Token) : Bool := lineEnd.number ≤ t.number

def structural : List Token := all.filter isStructural

def heading (level : Nat) : Token :=
  match level with
  | 1 => heading1
  | 2 => heading2
  | 3 => heading3
  | 4 => heading4
  | 5 => heading5
  | _ => heading6

/-- The mark of a list item. `apart` tells that it cannot end a paragraph. -/
def item (apart : Bool) : ListMark → Token
  | .plus => if apart then plusItemApart else plusItem
  | .minus => if apart then minusItemApart else minusItem
  | .star => if apart then starItemApart else starItem
  | .dot => if apart then dotItemApart else dotItem
  | .parenthesis => if apart then parenthesisItemApart else parenthesisItem

def fenceOpen : FenceMark → Token
  | .backtick => backtickOpen
  | .tilde => tildeOpen

def fenceClose : FenceMark → Token
  | .backtick => backtickClose
  | .tilde => tildeClose

def htmlOpen : HtmlKind → Token
  | .raw => rawOpen
  | .comment => commentOpen
  | .instruction => instructionOpen
  | .declaration => declarationOpen
  | .charData => charDataOpen
  | .blockElement => elementOpen
  | .loneTag => tagOpen

end Token

end Concordance.Markdown
