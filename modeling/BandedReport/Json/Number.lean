import BandedReport.Decimal.Text

/-!
# Numbers in JSON

A number text without fraction and exponent is an integer when sixty-four bits hold it; all other
numbers are doubles. A double is written with the fewest digits that read back: positionally with at
least one digit after the point, or with an exponent when it is small or large. It is read by
collecting as many digits as sixty-four bits hold and scaling once by a power of ten, so that long
texts may miss the nearest double by a little.
-/

namespace BandedReport.Json

/-- The layout of doubles in JSON text. -/
structure NumberLayout where
  /-- Positional notation is used when the point stands after more places than this. -/
  lowPoint : Int
  /-- … and after at most this many places. -/
  highPoint : Int
  /-- Where one of two equally near texts is taken from. -/
  tie : Tie

/-- Doubles from `0.00001` up to below `10 ^ 16` are positional; ties go to the even digit. -/
def numberLayout : NumberLayout := ⟨-5, 16, .toEven⟩

/-- The text of a finite magnitude given by its digits and the place of the point. -/
private def layOut (digits : List Char) (point : Int) : List Char :=
  if numberLayout.lowPoint < point && point ≤ numberLayout.highPoint then
    if (digits.length : Int) ≤ point then
      digits ++ List.replicate (point - digits.length).toNat '0' ++ ['.', '0']
    else Decimal.shiftPoint digits ((digits.length : Int) - point).toNat
  else
    let mantissa := match digits with
      | d :: e :: more => d :: '.' :: e :: more
      | short => short
    let exponent := point - 1
    let sign := if exponent < 0 then '-' else '+'
    mantissa ++ 'e' :: sign :: digitsOf exponent.natAbs

/-- The text of a double; `null` when it is not finite. -/
def floatChars (x : Float) : List Char :=
  match Binary.ofFloat x with
  | .finite v =>
    let d := v.shortest numberLayout.tie
    let digits := digitsOf d.coefficient
    let body :=
      if d.coefficient == 0 then ['0', '.', '0']
      else layOut digits (digits.length + d.exponent)
    if v.negative then '-' :: body else body
  | _ => ['n', 'u', 'l', 'l']

/-- The text of an integer. -/
def intChars (n : Int) : List Char :=
  if n < 0 then '-' :: digitsOf n.natAbs else digitsOf n.natAbs

/-! ## Reading -/

/-- A number that was read. -/
inductive Number where
  | integer (value : Int)
  | float (value : Float)
  /-- The text denotes a number beyond the doubles. -/
  | outOfRange

/-- The parts of a number text. -/
structure NumberText where
  negative : Bool
  whole : List Char
  fraction : Option (List Char)
  /-- Whether the exponent is negative, and its digits. -/
  exponent : Option (Bool × List Char)

/-- The largest significand that is collected. -/
def maxSignificand : Nat := Nat.pow 2 64 - 1

/-- Collect digits before the point: those that do not fit count as a power of ten each. -/
private def collectWhole (significand : Nat) (skipped : Nat) : List Char → Nat × Nat
  | [] => (significand, skipped)
  | c :: rest =>
    let next := 10 * significand + (c.toNat - '0'.toNat)
    if skipped == 0 && next ≤ maxSignificand then collectWhole next 0 rest
    else collectWhole significand (skipped + 1) rest

/-- Collect digits after the point as long as they fit; also how many were collected. -/
private def collectFraction (significand : Nat) (places : Nat) : List Char → Nat × Nat
  | [] => (significand, places)
  | c :: rest =>
    let next := 10 * significand + (c.toNat - '0'.toNat)
    if next ≤ maxSignificand then collectFraction next (places + 1) rest
    else (significand, places)

/-- Scale a double by a power of ten, in steps of the largest power that is a double; `none` when
the result is too large. -/
def scaleByTen (x : Float) (exponent : Int) : Option Float :=
  if exponent.natAbs ≤ 308 then
    let power := Float.ofScientific 1 false exponent.natAbs
    if 0 ≤ exponent then
      let scaled := x * power
      if scaled.isInf then none else some scaled
    else some (x / power)
  else if x == 0.0 then some x
  else if 0 ≤ exponent then none
  else scaleByTen (x / Float.ofScientific 1 false 308) (exponent + 308)
termination_by exponent.natAbs
decreasing_by omega

/-- Exponents from here on are not collected. -/
def exponentLimit : Nat := Nat.pow 2 31

/-- The double of a number text. -/
private def floatOfText (t : NumberText) : Number :=
  let (significand, skipped) := collectWhole 0 0 t.whole
  let (significand, places) := collectFraction significand 0 (t.fraction.getD [])
  let start : Int := (skipped : Int) - places
  let (negativeExponent, digits) := t.exponent.getD (false, [])
  let size := digitsValue digits
  let result : Option Float :=
    if exponentLimit ≤ size then
      if significand == 0 || negativeExponent then some 0.0 else none
    else
      scaleByTen (Float.ofNat significand) (if negativeExponent then start - size else start + size)
  match result with
  | some x => .float (Binary.withSign t.negative x)
  | none => .outOfRange

/-- The number of a number text. -/
def NumberText.value (t : NumberText) : Number :=
  if t.fraction.isNone && t.exponent.isNone then
    let n := digitsValue t.whole
    if !t.negative && n ≤ maxSignificand then .integer n
    else if t.negative && n != 0 && n ≤ Nat.pow 2 63 then .integer (-(n : Int))
    else floatOfText t
  else floatOfText t

end BandedReport.Json
