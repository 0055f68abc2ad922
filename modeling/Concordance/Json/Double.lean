/-! # Floating-point numbers

The finite numbers of double precision in exact arithmetic: a fraction is rounded
to the nearest of them, ties to even, and each is written with the fewest digits
that round back to it.
-/

namespace Concordance

/-- A finite number of double precision: `mantissa * 2 ^ exponent`, or its negative. The mantissa
has at most fifty-three bits, and fewer only at the lowest exponent. -/
structure Double where
  /-- Whether the sign is minus; zero has a sign too. -/
  negative : Bool
  mantissa : Nat
  /-- The power of two they are scaled by. -/
  exponent : Int
  deriving Repr, DecidableEq

namespace Double

/-- The lowest exponent, at which mantissas may be short. -/
def lowestExponent : Int := -1074

def highestExponent : Int := 971

/-- Zero without a minus sign. -/
def zero : Double := ⟨false, 0, lowestExponent⟩

def powerOfTwo (e : Int) : Nat × Nat :=
  if e < 0 then (1, Nat.pow 2 (-e).toNat) else (Nat.pow 2 e.toNat, 1)

/-- A quotient rounded to the nearest whole number, ties to even. -/
def roundedQuotient (num den : Nat) : Nat :=
  let q := num / den
  let r := num % den
  if 2 * r < den then q
  else if 2 * r == den then q + q % 2
  else q + 1

/-- The fraction divided by a power of two, as a fraction. -/
def scaledFraction (num den : Nat) (e : Int) : Nat × Nat :=
  let (up, down) := powerOfTwo e
  (num * down, den * up)

/-- The exponent at which a fraction has fifty-three bits, or the lowest one. -/
def fittingExponent (num den : Nat) : Int :=
  let guess : Int := (Nat.log2 num : Int) - (Nat.log2 den : Int) - 53
  let (n, d) := scaledFraction num den guess
  let exact := if n / d < Nat.pow 2 53 then guess else guess + 1
  max exact lowestExponent

/-- The number nearest to a fraction, unless the fraction lies beyond the largest one. -/
def ofFraction? (negative : Bool) (num den : Nat) : Option Double :=
  let e := fittingExponent num den
  let (n, d) := scaledFraction num den e
  let m := roundedQuotient n d
  let (m, e) := if m == Nat.pow 2 53 then (Nat.pow 2 52, e + 1) else (m, e)
  if m == 0 then some ⟨negative, 0, lowestExponent⟩
  else if e > highestExponent then none
  else some ⟨negative, m, e⟩

/-- The size of a number as a fraction. -/
def fraction (x : Double) : Nat × Nat :=
  let (up, down) := powerOfTwo x.exponent
  (x.mantissa * up, down)

/-- The product, rounded; the sign is that of the first factor. -/
def times? (x y : Double) : Option Double :=
  let (a, b) := x.fraction
  let (c, d) := y.fraction
  ofFraction? x.negative (a * c) (b * d)

/-- The quotient, rounded; the sign is that of the dividend. -/
def over? (x y : Double) : Option Double :=
  let (a, b) := x.fraction
  let (c, d) := y.fraction
  ofFraction? x.negative (a * d) (b * c)

/-- A power of ten, rounded, if it is in range. -/
def powerOfTen? (k : Nat) : Option Double :=
  if k ≤ 308 then ofFraction? false (Nat.pow 10 k) 1 else none

/-- Move the decimal point of a number to the left. More than 308 places are taken in steps, each
rounded. -/
def shiftDown? (x : Double) (places : Nat) : Option Double :=
  if x.mantissa == 0 then some x
  else if places ≤ 308 then (powerOfTen? places).bind x.over?
  else ((powerOfTen? 308).bind x.over?).bind fun y => shiftDown? y (places - 308)
termination_by places

/-- The number that digits and a decimal exponent stand for: the digits as a number, then moved by
a rounded power of ten. `none` is a number out of range. -/
def ofDecimal? (negative : Bool) (digits : Nat) (exponent : Int) : Option Double := do
  let x ← ofFraction? negative digits 1
  if x.mantissa == 0 then some x
  else if exponent < 0 then shiftDown? x (-exponent).toNat
  else (powerOfTen? exponent.toNat).bind x.times?

/-- Equal as numbers: both zeros are one. -/
def sameValue (x y : Double) : Bool :=
  (x.mantissa == 0 && y.mantissa == 0) || x == y

/-- The decimal exponent of a fraction's first digit. -/
def leadingExponent (num den : Nat) : Int :=
  if den ≤ num then ((Nat.toDigits 10 (num / den)).length : Int) - 1
  else -(((List.range 400).findIdx? fun k => den ≤ num * Nat.pow 10 k).getD 400 : Int)

/-- The fractions halfway to the neighbours below and above, over four times the denominator. -/
def halfways (x : Double) : Nat × Nat × Nat :=
  let (num, den) := x.fraction
  let (up, _) := powerOfTwo x.exponent
  let below := if x.mantissa == Nat.pow 2 52 && x.exponent > lowestExponent then up else 2 * up
  (4 * num - below, 4 * num + 2 * up, 4 * den)

/-- Whether a fraction rounds to the number. -/
def roundsTo (x : Double) (num den : Nat) : Bool :=
  let (low, high, unit) := x.halfways
  if x.mantissa % 2 == 0 then low * den ≤ num * unit && num * unit ≤ high * den
  else low * den < num * unit && num * unit < high * den

/-- The nearest decimal of a given number of digits that rounds to the number, if there is one:
its digits and its exponent. -/
def decimalOf? (x : Double) (lead : Int) (count : Nat) : Option (Nat × Int) :=
  let (num, den) := x.fraction
  let e := lead - (count - 1 : Nat)
  let (n, d) :=
    if e < 0 then (num * Nat.pow 10 (-e).toNat, den) else (num, den * Nat.pow 10 e.toNat)
  let place (k : Nat) : Nat × Nat :=
    if e < 0 then (k, Nat.pow 10 (-e).toNat) else (k * Nat.pow 10 e.toNat, 1)
  let fits (k : Nat) : Bool := x.roundsTo (place k).1 (place k).2
  let near := roundedQuotient n d
  let far := if near == n / d then n / d + 1 else n / d
  if fits near then some (near, e)
  else if fits far then some (far, e)
  else none

/-- The fewest digits that round to the number, and their exponent. -/
def shortest (x : Double) : Nat × Int :=
  let (num, den) := x.fraction
  let lead := leadingExponent num den
  ((List.range 17).findSome? fun k => x.decimalOf? lead (k + 1)).getD (0, 0)

/-- Digits without their trailing zeros, which go into the exponent. -/
def dropZeros (digits : List Char) (exponent : Int) : List Char × Int :=
  let kept := (digits.reverse.dropWhile (· == '0')).reverse
  (kept, exponent + (digits.length - kept.length : Nat))

/-- Write digits with a decimal point among the first sixteen places or up to five zeros behind
it, and with an exponent otherwise. -/
def layout (digits : List Char) (exponent : Int) : List Char :=
  let point : Int := digits.length + exponent
  if 0 ≤ exponent && point ≤ 16 then
    digits ++ List.replicate exponent.toNat '0' ++ ['.', '0']
  else if 0 < point && point ≤ 16 then
    digits.take point.toNat ++ '.' :: digits.drop point.toNat
  else if -5 < point && point ≤ 0 then
    '0' :: '.' :: List.replicate (-point).toNat '0' ++ digits
  else
    digits.take 1 ++ (if digits.length == 1 then [] else '.' :: digits.drop 1)
      ++ 'e' :: (toString (point - 1)).toList

/-- The number's text: always with a decimal point or an exponent. -/
def text (x : Double) : String :=
  let body :=
    if x.mantissa == 0 then "0.0".toList
    else
      let (digits, exponent) := x.shortest
      let (kept, exponent) := dropZeros (Nat.toDigits 10 digits) exponent
      layout kept exponent
  String.ofList (if x.negative then '-' :: body else body)

end Double

end Concordance
