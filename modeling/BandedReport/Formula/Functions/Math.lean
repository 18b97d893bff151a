import BandedReport.Formula.Functions.Argument
import BandedReport.Decimal.Rounding

/-!
# Arithmetic functions

Rounding, absolute value and remainder.
-/

namespace BandedReport.Formula.Math

/-- The number of digits to round to: the fraction is dropped, and the count is brought into the
range in which it makes a difference. -/
def digitCount (x : Float) : Int :=
  match Binary.ofFloat x with
  | .nan => 0
  | .infinite negative => if negative then -maxRoundDigits else maxRoundDigits
  | .finite v => max (-maxRoundDigits) (min maxRoundDigits v.integerPart)

/-- Round half away from zero, to no decimals unless a count is given. -/
def round (args : List Scalar) : Outcome := do
  let x ← numberArgument "ROUND" args 0
  let digits ← optionalNumber "ROUND" args 1 0.0
  return .number (roundHalfUp x (digitCount digits))

/-- The remainder of a division, with the sign of the dividend. -/
def modulo (args : List Scalar) : Outcome := do
  let a ← numberArgument "MOD" args 0
  let b ← numberArgument "MOD" args 1
  if b == 0.0 then .error .divideByZero else return .number (remainder a b)

/-- A function of one number. -/
def unary (name : String) (f : Float → Float) (args : List Scalar) : Outcome := do
  return .number (f (← numberArgument name args 0))

/-- The arithmetic functions. -/
def functions : List FunctionDef :=
  let define (name : String) (arity : Arity) (description : String)
      (run : List Scalar → Outcome) : FunctionDef :=
    { name, arity, category := .math, description, body := .eager fun args _ => run args }
  [define "ROUND" (.between 1 2) "Round half away from zero to n decimals" round,
   define "FLOOR" (.exactly 1) "Largest integer not above the value" (unary "FLOOR" floor),
   define "CEIL" (.exactly 1) "Smallest integer not below the value" (unary "CEIL" ceiling),
   define "ABS" (.exactly 1) "Absolute value" (unary "ABS" Float.abs),
   define "MOD" (.exactly 2) "Remainder of a / b, sign follows a" modulo]

end BandedReport.Formula.Math
