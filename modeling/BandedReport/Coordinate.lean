import BandedReport.Decimal.Binary
import BandedReport.Extremum

/-!
# Coordinates

The arithmetic that the design surface needs of its coordinates. A surface is drawn in doubles;
the geometry itself is written for any numbers with these operations.
-/

namespace BandedReport

/-- Numbers that can be coordinates. -/
class Coordinate (κ : Type) extends Add κ, Sub κ, Mul κ, Div κ, BEq κ, LT κ, LE κ where
  decLT : DecidableLT κ
  decLE : DecidableLE κ
  /-- The coordinate of a natural number. -/
  ofNat : Nat → κ
  /-- The coordinate nearest to a double. -/
  ofFloat : Float → κ
  /-- The magnitude of a coordinate. -/
  abs : κ → κ
  /-- Is the coordinate neither missing nor infinite? -/
  isFinite : κ → Bool
  /-- The length of the hypotenuse over two legs. -/
  hypotenuse : κ → κ → κ
  /-- A total order, which places missing and infinite coordinates too. -/
  precedes : κ → κ → Bool

namespace Coordinate

variable {κ : Type} [Coordinate κ]

instance : DecidableLT κ := decLT

instance : DecidableLE κ := decLE

/-- The sum of coordinates, added from left to right. -/
def sum (xs : List κ) : κ := xs.foldl (· + ·) (ofNat 0)

/-- The coordinate, or a default when it is not finite. -/
def finiteOr (x default : κ) : κ := if isFinite x then x else default

end Coordinate

/-- The place of a double in the total order of all doubles: by value, negative zero before zero,
missing numbers at the end of their sign. -/
def totalRank (x : Float) : Int :=
  let bits := x.toBits.toNat
  if bits < Nat.pow 2 63 then bits else (Nat.pow 2 63 : Int) - bits - 1

instance : Coordinate Float where
  decLT := inferInstance
  decLE := inferInstance
  ofNat := Float.ofNat
  ofFloat := id
  abs := Float.abs
  isFinite := Float.isFinite
  hypotenuse := hypotenuse
  precedes a b := totalRank a ≤ totalRank b

end BandedReport
