/-! # Likeness of names

How alike two names are by the characters that they share at about the same places,
and the names of a collection that one may stand for by mistake.
-/

namespace Concordance.Text

/-- Take the first character that equals `c` and stands before the place `stop` and at or behind
the place `start`; places begin at `place`. Characters that were taken are gone. -/
def takeNear (c : Char) (start stop : Nat) : Nat → List (Option Char) → Option (List (Option Char))
  | _, [] => none
  | place, d :: rest =>
      if stop ≤ place then none
      else if start ≤ place && d == some c then some (none :: rest)
      else (takeNear c start stop (place + 1) rest).map (d :: ·)

/-- The characters of the first text that have an equal one near their place in the second, and what
is left of the second. -/
def sharedFrom (range : Nat) : Nat → List Char → List (Option Char) → List Char × List (Option Char)
  | _, [], left => ([], left)
  | place, c :: rest, left =>
      match takeNear c (place - range) (place + range + 1) 0 left with
      | some left =>
          let (shared, left) := sharedFrom range (place + 1) rest left
          (c :: shared, left)
      | none => sharedFrom range (place + 1) rest left

/-- Whether the likeness of two texts by Jaro's measure is more than seven tenths: the mean of the
shares of both texts that the other one has as well, and of the share of these characters that stand
in the same order. -/
def areAlike (a b : List Char) : Bool :=
  let range := max a.length b.length / 2 - 1
  let (shared, left) := sharedFrom range 0 a (b.map some)
  let taken := (b.zip left).filterMap fun (c, rest) => if rest.isNone then some c else none
  let m := shared.length
  let swapped := ((shared.zip taken).filter fun (c, d) => c != d).length / 2
  let (n, k) := (a.length, b.length)
  if m == 0 then n == 0 && k == 0
  else 21 * n * k * m < 10 * (m * m * k + m * m * n + (m - swapped) * n * k)

/-- The names that a name may stand for by mistake. -/
def alike (name : String) (names : List String) : List String :=
  names.filter fun other => areAlike name.toList other.toList

end Concordance.Text
