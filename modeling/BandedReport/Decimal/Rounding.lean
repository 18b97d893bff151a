import BandedReport.Decimal.Text

/-!
# Rounding to a number of places

Amounts are rounded half away from zero *on their decimal text*: `2.345` becomes `2.35` although
the double lies slightly below. The text is taken as a decimal of ninety-six bits with at most
twenty-eight places; a number that does not fit, or a request for other places, is rounded in
double arithmetic.
-/

namespace BandedReport

/-- The most places of a fixed-size decimal. -/
def Decimal.maxPlaces : Nat := 28

/-- The coefficient of a fixed-size decimal is below this bound. -/
def Decimal.capacity : Nat := Nat.pow 2 96

/-- The shortest decimal of a double as a fixed-size decimal: further places are rounded off, a
half away from zero; `none` when the coefficient does not fit. -/
def Decimal.ofFloat? (x : Float) : Option Decimal :=
  match Binary.ofFloat x with
  | .finite v =>
    let d := (v.shortest .up).roundTo maxPlaces
    if d.coefficient * Nat.pow 10 d.exponent.toNat < capacity then some d else none
  | _ => none

/-- Ten to the power `k`, by repeated squaring in double arithmetic. -/
def tenToThe (k : Nat) : Float := go 10.0 k 1.0
where
  /-- Multiply `acc` by `base ^ k`. -/
  go (base : Float) (k : Nat) (acc : Float) : Float :=
    let acc := if k % 2 == 1 then acc * base else acc
    if _h : k / 2 = 0 then acc else go (base * base) (k / 2) acc
  termination_by k
  decreasing_by omega

/-- Beyond this many digits every finite double rounds to itself or to zero. -/
def maxRoundDigits : Int := 308

/-- Round to a number of places by scaling, rounding to an integer and scaling back; a number
whose scaled value leaves the doubles stays as it is. -/
def roundByScaling (x : Float) (digits : Int) : Float :=
  if digits < 0 then
    let factor := tenToThe (-digits).toNat
    let rounded := roundHalfAway (x / factor) * factor
    if rounded.isFinite then rounded else x
  else
    let factor := tenToThe digits.toNat
    let scaled := x * factor
    if scaled.isFinite then roundHalfAway scaled / factor else x

/-- Round half away from zero to `digits` places; a negative count rounds before the point. -/
def roundHalfUp (x : Float) (digits : Int) : Float :=
  if !x.isFinite then x
  else
    let digits := max (-maxRoundDigits) (min maxRoundDigits digits)
    if 0 ≤ digits && digits ≤ Decimal.maxPlaces then
      match Decimal.ofFloat? x with
      | some d => (d.roundTo digits.toNat).toFloat
      | none => roundByScaling x digits
    else roundByScaling x digits

end BandedReport
