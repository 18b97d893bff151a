import BandedReport.Decimal.Binary
import BandedReport.Decimal.Basic

/-!
# The shortest decimal of a double

Among the decimals that read back as a given double, the one with the fewest digits is chosen, and
of several with that many digits the nearest. The search walks over decimal grids from coarse to
fine; on each grid only the two neighbours of the value can be answers, since the reals that round
to the double form an interval around it.
-/

namespace BandedReport

/-- The reals that round to a positive double, and the double itself, as multiples of
`1 / denominator`. -/
structure RoundingInterval where
  lower : Nat
  value : Nat
  upper : Nat
  denominator : Nat
  /-- Whether the two ends round to the double as well. -/
  closed : Bool
deriving DecidableEq

namespace RoundingInterval

/-- The interval of `mantissa · 2 ^ exponent`. Below a power of two the doubles are twice as
dense, so there the lower half is half as wide. The ends belong to the interval when the
mantissa is even. -/
def ofBinary (v : Binary) : RoundingInterval :=
  let atPowerOfTwo := v.mantissa == Nat.pow 2 52 && (-1074 < v.exponent : Bool)
  let scale : Int := v.exponent - 2
  let num := Nat.pow 2 scale.toNat
  { lower := (4 * v.mantissa - (if atPowerOfTwo then 1 else 2)) * num
    value := 4 * v.mantissa * num
    upper := (4 * v.mantissa + 2) * num
    denominator := Nat.pow 2 (-scale).toNat
    closed := v.mantissa % 2 == 0 }

/-- Does `k · 10 ^ grid` round to the double? -/
def holds (i : RoundingInterval) (grid : Int) (k : Nat) : Bool :=
  let point := k * Nat.pow 10 grid.toNat * i.denominator
  let unit := Nat.pow 10 (-grid).toNat
  if i.closed then i.lower * unit ≤ point && point ≤ i.upper * unit
  else i.lower * unit < point && point < i.upper * unit

/-- The answer on the grid of multiples of `10 ^ grid`, if that grid has one. -/
def onGrid (tie : Tie) (i : RoundingInterval) (grid : Int) : Option Nat :=
  let num := i.value * Nat.pow 10 (-grid).toNat
  let den := i.denominator * Nat.pow 10 grid.toNat
  let below := num / den
  match i.holds grid below && below != 0, i.holds grid (below + 1) with
  | true, true => some (roundQuotient tie num den)
  | true, false => some below
  | false, true => some (below + 1)
  | false, false => none

/-- The place of the first digit: the value is below `10 ^ magnitude`. -/
def magnitude (i : RoundingInterval) : Int :=
  let whole := i.value / i.denominator
  if whole == 0 then 2 - ((digitsOf (i.denominator / i.value)).length : Int)
  else (digitsOf whole).length

/-- Try finer and finer grids. -/
def search (tie : Tie) (i : RoundingInterval) : (attempts : Nat) → (grid : Int) → Nat × Int
  | 0, grid => (i.value * Nat.pow 10 (-grid).toNat / (i.denominator * Nat.pow 10 grid.toNat), grid)
  | attempts + 1, grid =>
    match i.onGrid tie grid with
    | some k => (k, grid)
    | none => search tie i attempts (grid - 1)

end RoundingInterval

/-- The shortest decimal that reads back as the given finite value; `tie` decides between two
that are equally near. -/
def Binary.shortest (tie : Tie) (v : Binary) : Decimal :=
  if v.mantissa == 0 then ⟨v.negative, 0, 0⟩
  else
    let i := RoundingInterval.ofBinary v
    let (coefficient, exponent) := i.search tie 20 i.magnitude
    ⟨v.negative, coefficient, exponent⟩

end BandedReport
