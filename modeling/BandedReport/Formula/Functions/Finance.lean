import BandedReport.Formula.Functions.Argument

/-!
# Finance functions

Discounts and taxes. Rates are percentages.
-/

namespace BandedReport.Formula.Finance

/-- A function of an amount and a rate, which is given as a percentage. -/
def ofAmountAndRate (name : String) (f : (amount rate : Float) → Float)
    (args : List Scalar) : Outcome := do
  let amount ← numberArgument name args 0
  let rate ← numberArgument name args 1
  return .number (f amount (rate / 100.0))

/-- The finance functions. -/
def functions : List FunctionDef :=
  let define (name description : String) (f : (amount rate : Float) → Float) : FunctionDef :=
    { name, arity := .exactly 2, category := .finance, description
      body := .eager fun args _ => ofAmountAndRate name f args }
  [define "DISCOUNT" "Amount after a percentage discount" fun amount rate => amount * (1.0 - rate),
   define "TAX" "Tax on an amount at a percentage rate" fun amount rate => amount * rate,
   define "WITHTAX" "Amount including tax" fun amount rate => amount * (1.0 + rate),
   define "EXTRACTTAX" "Tax contained in a tax-inclusive amount" fun amount rate =>
     amount - amount / (1.0 + rate)]

end BandedReport.Formula.Finance
