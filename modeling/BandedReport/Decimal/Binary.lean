/-!
# Exact values of doubles

A finite double is a sign and a dyadic number `mantissa · 2 ^ exponent`. This module reads the
three parts off the bits and rebuilds a double from them, so that every rounding rule of the
library can be computed in `Nat` and `Int`.

* `Binary.ofFloat` decodes a double, `Binary.toFloat` rounds a dyadic value back to one.
* `truncate`, `floor`, `ceiling`, `roundHalfAway` are the four roundings to an integer.
* `remainder` is the exact remainder of a truncated division.
* `hypotenuse` is the double nearest to the root of a sum of two squares.
-/

namespace BandedReport

/-- The value of a finite double: `± mantissa · 2 ^ exponent`. -/
structure Binary where
  /-- The sign bit, which zero has too. -/
  negative : Bool
  mantissa : Nat
  exponent : Int
deriving DecidableEq

/-- What the bits of a double stand for. -/
inductive FloatValue where
  | nan
  | infinite (negative : Bool)
  | finite (value : Binary)
deriving DecidableEq

namespace Binary

/-! ## §1 Decoding -/

/-- Decode a double: one sign bit, eleven exponent bits and fifty-two fraction bits. -/
def ofFloat (x : Float) : FloatValue :=
  let bits := x.toBits.toNat
  let negative := bits / Nat.pow 2 63 == 1
  let biased : Nat := bits / Nat.pow 2 52 % Nat.pow 2 11
  let fraction : Nat := bits % Nat.pow 2 52
  if biased == 2047 then
    if fraction == 0 then .infinite negative else .nan
  else if biased == 0 then .finite ⟨negative, fraction, -1074⟩
  else .finite ⟨negative, Nat.pow 2 52 + fraction, (biased : Int) - 1075⟩

/-- Give a magnitude the sign asked for. -/
def withSign (negative : Bool) (magnitude : Float) : Float :=
  if negative then -magnitude else magnitude

/-- The double nearest to a dyadic value. A negative power of two is a decimal as well:
`2 ^ (-k) = 5 ^ k · 10 ^ (-k)`. -/
def toFloat (v : Binary) : Float :=
  let magnitude :=
    if 0 ≤ v.exponent then Float.ofScientific (v.mantissa * Nat.pow 2 v.exponent.toNat) false 0
    else
      let k := (-v.exponent).toNat
      Float.ofScientific (v.mantissa * Nat.pow 5 k) true k
  withSign v.negative magnitude

/-! ## §2 Integer parts -/

/-- The magnitude as a fraction: numerator and denominator. -/
def fraction (v : Binary) : Nat × Nat :=
  if 0 ≤ v.exponent then (v.mantissa * Nat.pow 2 v.exponent.toNat, 1)
  else (v.mantissa, Nat.pow 2 (-v.exponent).toNat)

/-- Does the value lie on the integers? -/
def isIntegral (v : Binary) : Bool :=
  let (num, den) := v.fraction
  num % den == 0

/-- The value without its fraction, as an integer. -/
def integerPart (v : Binary) : Int :=
  let (num, den) := v.fraction
  let whole := num / den
  if v.negative then -(whole : Int) else whole

end Binary

/-- Replace the magnitude of a finite double by an integer computed from it; integral doubles
and values that are not finite stay as they are. -/
private def mapMagnitude (f : (negative : Bool) → (num den : Nat) → Nat) (x : Float) : Float :=
  match Binary.ofFloat x with
  | .finite v =>
    if v.isIntegral then x
    else
      let (num, den) := v.fraction
      Binary.withSign v.negative (Float.ofNat (f v.negative num den))
  | _ => x

private theorem mapMagnitude_finite (f : (negative : Bool) → (num den : Nat) → Nat) {x : Float}
    {v : Binary} (hv : Binary.ofFloat x = .finite v) :
    mapMagnitude f x = if v.isIntegral then x
      else Binary.withSign v.negative (Float.ofNat (f v.negative v.fraction.1 v.fraction.2)) := by
  rw [mapMagnitude, hv]

/-- Round toward zero. -/
def truncate (x : Float) : Float :=
  mapMagnitude (fun _ num den => num / den) x

theorem truncate_finite {x : Float} {v : Binary} (hv : Binary.ofFloat x = .finite v) :
    truncate x = if v.isIntegral then x
      else Binary.withSign v.negative (Float.ofNat (v.fraction.1 / v.fraction.2)) :=
  mapMagnitude_finite _ hv

/-- The largest integer not above `x`. -/
def floor (x : Float) : Float :=
  mapMagnitude (fun negative num den => if negative then num / den + 1 else num / den) x

/-- The smallest integer not below `x`. -/
def ceiling (x : Float) : Float :=
  mapMagnitude (fun negative num den => if negative then num / den else num / den + 1) x

/-- Round to the nearest integer, a half away from zero. -/
def roundHalfAway (x : Float) : Float :=
  mapMagnitude (fun _ num den => (2 * num + den) / (2 * den)) x

theorem roundHalfAway_finite {x : Float} {v : Binary} (hv : Binary.ofFloat x = .finite v) :
    roundHalfAway x = if v.isIntegral then x
      else Binary.withSign v.negative
        (Float.ofNat ((2 * v.fraction.1 + v.fraction.2) / (2 * v.fraction.2))) :=
  mapMagnitude_finite _ hv

/-! ## §3 Remainder -/

/-- The remainder of the truncated division of `x` by `y`: exact, and with the sign of `x`. -/
def remainder (x y : Float) : Float :=
  match Binary.ofFloat x, Binary.ofFloat y with
  | .finite a, .finite b =>
    if b.mantissa == 0 then x / y - x / y
    else
      let scale := min a.exponent b.exponent
      let num := a.mantissa * Nat.pow 2 (a.exponent - scale).toNat
      let den := b.mantissa * Nat.pow 2 (b.exponent - scale).toNat
      Binary.toFloat ⟨a.negative, num % den, scale⟩
  | .finite _, .infinite _ => x
  | _, _ => x - x + (y - y)

/-! ## §4 Square roots -/

/-- Newton's iteration for the integer square root, from a guess above the root. -/
private def sqrtFrom : Nat → Nat → Nat → Nat
  | 0, _, guess => guess
  | fuel + 1, n, guess =>
    let next := (guess + n / guess) / 2
    if next < guess then sqrtFrom fuel n next else guess

/-- The largest integer whose square is at most `n`. -/
def integerSqrt (n : Nat) : Nat :=
  if n == 0 then 0 else sqrtFrom (n.log2 + 2) n (Nat.pow 2 (n.log2 / 2 + 1))

/-- The double nearest to `√(a² + b²)`, computed exactly: fifty-five bits of the root are taken,
and one more bit records whether anything follows them. -/
def hypotenuse (a b : Float) : Float :=
  match Binary.ofFloat a, Binary.ofFloat b with
  | .infinite _, _ => a.abs
  | _, .infinite _ => b.abs
  | .finite u, .finite v =>
    let scale := min u.exponent v.exponent
    let p := u.mantissa * Nat.pow 2 (u.exponent - scale).toNat
    let q := v.mantissa * Nat.pow 2 (v.exponent - scale).toNat
    let squares := p * p + q * q
    let extra := 60 - min 60 (squares.log2 / 2)
    let scaled := squares * Nat.pow 4 extra
    let root := integerSqrt scaled
    let sticky := if root * root == scaled then 0 else 1
    Binary.toFloat ⟨false, 2 * root + sticky, scale - extra - 1⟩
  | _, _ => a + b

end BandedReport
