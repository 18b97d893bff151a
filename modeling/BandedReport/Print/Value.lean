import BandedReport.Amount.Chinese
import BandedReport.Amount.Fixed
import BandedReport.Canvas.Control
import BandedReport.Scalar

/-!
# Printed values

How a value is printed in the format of a field or a calculated control. A format that does not
suit the value leaves it as it is shown elsewhere.
-/

namespace BandedReport

/-- The decimals of number formats that set none. -/
def defaultDecimals : Nat := 2

/-- The most decimals that number formats print. -/
def maxDecimals : Nat := 20

namespace ValueFormat

/-- The decimals of a number format. -/
def decimals (f : ValueFormat) : Nat := min (f.decimalPlaces.getD defaultDecimals) maxDecimals

/-- A number in a number format. -/
def printNumber (f : ValueFormat) (x : Float) : Option String :=
  match f.formatType with
  | .number => some (Amount.fixed x f.decimals false)
  | .currency => some (Amount.currency x Amount.defaultSymbol f.decimals)
  | .percent => some (Amount.fixed (x * 100.0) f.decimals false ++ "%")
  | .chineseUpper => Amount.chinese? x
  | .general | .date => none

/-- The number that a value is printed as; booleans and dates are none. -/
def number? : Scalar → Option Float
  | .number x => some x
  | .text s => (Scalar.text s).asNumber?
  | _ => none

/-- The text of a value in a format. -/
def print (f : ValueFormat) (value : Scalar) : String :=
  match value with
  | .null => ""
  | value =>
    let printed : Option String := match f.formatType with
      | .date => value.asDate?.map fun d => d.format DateTime.defaultPattern
      | _ => (number? value).bind f.printNumber
    printed.getD value.display

end ValueFormat

end BandedReport
