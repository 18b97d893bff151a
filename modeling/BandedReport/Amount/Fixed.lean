import BandedReport.Decimal.Rounding

/-!
# Amounts with fixed places

An amount is rounded half away from zero and written with a fixed number of places, with or
without thousands separators, with or without a currency symbol.
-/

namespace BandedReport.Amount

/-- The currency symbol used when none is given. -/
def defaultSymbol : String := "¥"

/-- Put a comma before every third digit from the right, but not in front. -/
def groupThousands : List Char → List Char
  | [] => []
  | c :: rest =>
    if !rest.isEmpty && rest.length % 3 == 0 then c :: ',' :: groupThousands rest
    else c :: groupThousands rest

/-- Split digits at the decimal point; the second part is absent when there is no point. -/
def splitPoint (digits : List Char) : List Char × Option (List Char) :=
  match digits.dropWhile (· != '.') with
  | [] => (digits, none)
  | _ :: fraction => (digits.takeWhile (· != '.'), some fraction)

/-- The digits of a rounded amount, its sign left out. -/
def fixedBody (rounded : Float) (places : Nat) (grouped : Bool) : List Char :=
  let (whole, fraction) := splitPoint (fixedMagnitude places rounded)
  let whole := if grouped then groupThousands whole else whole
  match fraction with
  | some digits => whole ++ '.' :: digits
  | none => whole

/-- Fixed places, optionally with thousands separators; a minus sign only if the rounded amount
is below zero. -/
def fixedChars (x : Float) (places : Nat) (grouped : Bool) : List Char :=
  let rounded := roundHalfUp x places
  let body := fixedBody rounded places grouped
  if rounded < 0 then '-' :: body else body

@[inherit_doc fixedChars]
def fixed (x : Float) (places : Nat) (grouped : Bool) : String :=
  String.ofList (fixedChars x places grouped)

/-- Currency text: sign, symbol, and the magnitude with thousands separators and fixed places. -/
def currency (x : Float) (symbol : String) (places : Nat) : String :=
  let body := symbol.toList ++ fixedChars x.abs places true
  String.ofList (if roundHalfUp x places < 0 then '-' :: body else body)

end BandedReport.Amount
