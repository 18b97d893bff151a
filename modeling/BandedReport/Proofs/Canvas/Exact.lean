import Mathlib
import BandedReport.Coordinate

/-!
# Exact coordinates

The geometry is written for any coordinates. Its laws hold without rounding where coordinates are
rational numbers: there every coordinate is finite and the larger of two is their maximum.
-/

namespace BandedReport

/-- The exact value of a double; zero when it has none. -/
def exactValue (x : Float) : ℚ :=
  match Binary.ofFloat x with
  | .finite v =>
    let magnitude := mkRat v.fraction.1 v.fraction.2
    if v.negative then -magnitude else magnitude
  | _ => 0

/-- Rational numbers as coordinates. A hypotenuse is exact whenever it is rational. -/
instance : Coordinate ℚ where
  decLT := inferInstance
  decLE := inferInstance
  ofNat n := n
  ofFloat := exactValue
  abs x := |x|
  isFinite _ := true
  hypotenuse a b := Rat.sqrt (a * a + b * b)
  precedes a b := a ≤ b

namespace Exact

@[simp] theorem ofNat_zero : (Coordinate.ofNat 0 : ℚ) = 0 := Nat.cast_zero

@[simp] theorem finiteOr_eq (x default : ℚ) : Coordinate.finiteOr x default = x := if_pos rfl

@[simp] theorem larger_eq_max (a b : ℚ) : larger a b = max a b := by
  -- A rational number is equal to itself, so the comparison decides.
  rw [larger, if_pos (beq_self_eq_true a), max_def_lt]

@[simp] theorem smaller_eq_min (a b : ℚ) : smaller a b = min a b := by
  rw [smaller, if_pos (beq_self_eq_true a), min_comm, min_def_lt]

@[simp] theorem sum_eq (xs : List ℚ) : Coordinate.sum xs = xs.sum := by
  rw [List.sum_eq_foldl, Coordinate.sum, ofNat_zero]

end Exact

end BandedReport
