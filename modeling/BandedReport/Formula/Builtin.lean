import BandedReport.Formula.Functions.Aggregate
import BandedReport.Formula.Functions.Math
import BandedReport.Formula.Functions.Text
import BandedReport.Formula.Functions.Calendar
import BandedReport.Formula.Functions.Logic
import BandedReport.Formula.Functions.Format
import BandedReport.Formula.Functions.Finance

/-!
# The built-in functions
-/

namespace BandedReport.Formula

/-- Every built-in function. -/
def builtinFunctions : List FunctionDef :=
  Aggregate.functions ++ Math.functions ++ Text.functions ++ Calendar.functions ++
    Logic.functions ++ Format.functions ++ Finance.functions

/-- The registry of the built-in functions. -/
def Registry.builtin : Registry := .ofList builtinFunctions

end BandedReport.Formula
