/-! # Base thirty-six

Numbers written with the digits and the lower-case letters.
-/

namespace Concordance.Text

def base36Digit (n : Nat) : Char :=
  if n < 10 then Char.ofNat ('0'.toNat + n) else Char.ofNat ('a'.toNat + (n - 10))

/-- The digits of a number before those already written. -/
def base36Onto (n : Nat) (written : List Char) : List Char :=
  if n < 36 then base36Digit n :: written
  else base36Onto (n / 36) (base36Digit (n % 36) :: written)
termination_by n

/-- The number in base thirty-six, without leading zeros. -/
def base36 (n : Nat) : String :=
  String.ofList (base36Onto n [])

end Concordance.Text
