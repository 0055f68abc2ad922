/-! # Places

Places in a text, with what follows them and how much stands before them.
-/

namespace Concordance.Grammar

/-- A place in a text. -/
structure Place where
  /-- The characters after it. -/
  rest : List Char
  /-- The number of bytes before it. -/
  bytes : Nat
  /-- The number of line feeds before it. -/
  lines : Nat

namespace Place

def before (text : List Char) : Place := ⟨text, 0, 0⟩

def next (p : Place) : Place :=
  match p.rest with
  | [] => p
  | c :: rest => ⟨rest, p.bytes + c.utf8Size, if c == '\n' then p.lines + 1 else p.lines⟩

def skip (n : Nat) (p : Place) : Place :=
  match n with
  | 0 => p
  | n + 1 => skip n p.next

/-- The characters that the given number of bytes holds. -/
def takeBytes : Nat → List Char → List Char
  | _, [] => []
  | 0, _ => []
  | n + 1, c :: rest => c :: takeBytes (n + 1 - c.utf8Size) rest

/-- The characters between two places of one text. -/
def textTo (p q : Place) : List Char := takeBytes (q.bytes - p.bytes) p.rest

end Place

end Concordance.Grammar
