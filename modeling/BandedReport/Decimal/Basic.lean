/-!
# Decimal numbers

A decimal number is a sign, a coefficient and a power of ten. It is what a number's text denotes,
and the ground on which the library rounds amounts.

* `roundQuotient` rounds a quotient of naturals, a half going where a `Tie` says.
* `Decimal.plain` writes a decimal positionally, without an exponent.
* `Decimal.roundTo` keeps a number of places.
* `Decimal.toFloat` is the double nearest to the decimal.
-/

namespace BandedReport

/-- Where an exact half goes when a quotient is rounded. -/
inductive Tie where
  | up
  | toEven
deriving DecidableEq

/-- The integer nearest to `num / den`, an exact half going where `tie` says. -/
def roundQuotient (tie : Tie) (num den : Nat) : Nat :=
  let whole := num / den
  let twice := 2 * (num % den)
  if twice < den then whole
  else if den < twice then whole + 1
  else match tie with
    | .up => whole + 1
    | .toEven => whole + whole % 2

/-- The number `± coefficient · 10 ^ exponent`. -/
structure Decimal where
  /-- The sign, which zero has too. -/
  negative : Bool
  coefficient : Nat
  exponent : Int
deriving DecidableEq

/-- The decimal digits of a natural number, most significant first. -/
def digitsOf (n : Nat) : List Char := Nat.toDigits 10 n

namespace Decimal

/-- Digits with the decimal point moved `places` to the left, at least one digit before it. -/
def shiftPoint (digits : List Char) (places : Nat) : List Char :=
  let padded := List.replicate (places + 1 - digits.length) '0' ++ digits
  let whole := padded.take (padded.length - places)
  if places == 0 then whole else whole ++ '.' :: padded.drop (padded.length - places)

/-- The magnitude in positional notation: no exponent, and no point when there is no fraction. -/
def plainMagnitude (d : Decimal) : List Char :=
  if d.coefficient == 0 then ['0']
  else if 0 ≤ d.exponent then digitsOf d.coefficient ++ List.replicate d.exponent.toNat '0'
  else shiftPoint (digitsOf d.coefficient) (-d.exponent).toNat

/-- Positional notation with the sign in front. -/
def plain (d : Decimal) : List Char :=
  if d.negative then '-' :: d.plainMagnitude else d.plainMagnitude

/-- The number of places after the point. -/
def places (d : Decimal) : Nat := (-d.exponent).toNat

/-- Keep at most `places` places, a half going away from zero. -/
def roundTo (places : Nat) (d : Decimal) : Decimal :=
  if d.places ≤ places then d
  else
    { d with
      coefficient := roundQuotient .up d.coefficient (Nat.pow 10 (d.places - places))
      exponent := -(places : Int) }

/-- The double nearest to the decimal. Exponents far outside the range of doubles are answered
without computing the power of ten. -/
def toFloat (d : Decimal) : Float :=
  let size : Int := (digitsOf d.coefficient).length + d.exponent
  let magnitude : Float :=
    if d.coefficient == 0 || size < -400 then 0.0
    else if 400 < size then 1.0 / 0.0
    else if 0 ≤ d.exponent then Float.ofScientific d.coefficient false d.exponent.toNat
    else Float.ofScientific d.coefficient true (-d.exponent).toNat
  if d.negative then -magnitude else magnitude

end Decimal

end BandedReport
