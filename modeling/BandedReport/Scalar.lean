import BandedReport.Calendar.Text

/-!
# Values

A `Scalar` is what a data field holds and what a formula produces: nothing, a boolean, a number, a
text or a date. Its views are the number it counts as, its truth, whether it is blank, and the
text it is shown as.
-/

namespace BandedReport

/-- A single data value. -/
inductive Scalar where
  | null
  | boolean (value : Bool)
  | number (value : Float)
  | text (value : String)
  | date (value : DateTime)
deriving BEq, Inhabited

namespace Scalar

/-- The number a value counts as: null is zero, booleans are zero and one, text is read when it
holds a finite number; other text and dates have none. -/
def asNumber? : Scalar → Option Float
  | null => some 0.0
  | boolean b => some (if b then 1.0 else 0.0)
  | number x => some x
  | text s => (readNumberChars (trimChars s.toList)).filter Float.isFinite
  | date _ => none

/-- Null, false, zero, a missing number and the empty text do not hold. -/
def isTruthy : Scalar → Bool
  | null => false
  | boolean b => b
  | number x => x != 0.0 && !x.isNaN
  | text s => s != ""
  | date _ => true

/-- Null and the empty text are blank. -/
def isBlank : Scalar → Bool
  | null => true
  | text s => s == ""
  | _ => false

/-- The name of the value's type. -/
def typeName : Scalar → String
  | null => "null"
  | boolean _ => "boolean"
  | number _ => "number"
  | text _ => "string"
  | date _ => "date"

/-- The characters the value is shown as. -/
def displayChars : Scalar → List Char
  | null => []
  | boolean b => if b then "true".toList else "false".toList
  | number x => formatNumberChars x
  | text s => s.toList
  | date d => d.displayChars

/-- The text the value is shown as. -/
def display : Scalar → String
  | text s => s
  | value => String.ofList value.displayChars

theorem ofList_displayChars (v : Scalar) : String.ofList v.displayChars = v.display := by
  cases v with
  | text s => exact String.ofList_toList
  | null | boolean _ | number _ | date _ => rfl

/-- The number of a natural. -/
def ofNat (n : Nat) : Scalar := number (Float.ofNat n)

/-- The value, if it is a date or a text that begins with one. -/
def asDate? : Scalar → Option DateTime
  | date d => some d
  | text s => DateTime.read? s
  | _ => none

end Scalar

end BandedReport
