import BandedReport.Formula.Functions.Argument
import BandedReport.Amount.Pattern
import BandedReport.Amount.Chinese

/-!
# Formatting functions

Numbers and dates as text: by patterns, with fixed decimals, as currency, in Chinese capitals, and
padded to a width.
-/

namespace BandedReport.Formula.Format

/-- A date by a date pattern, anything else by a number pattern. -/
def format (args : List Scalar) : Outcome :=
  let pattern := charsArgument args 1
  let date :=
    if DateTime.isPattern pattern then (argument args 0).asDate? else none
  match date with
  | some d => .ok (.text (String.ofList (d.formatChars pattern)))
  | none => do
    let x ← numberArgument "FORMAT" args 0
    return .text (Amount.patterned x (String.ofList pattern))

/-- A number with fixed decimals, two unless a count is given. -/
def fixed (args : List Scalar) : Outcome := do
  let x ← numberArgument "FIXED" args 0
  let decimals ← decimalsArgument "FIXED" args 1 2
  return .text (Amount.fixed x decimals false)

/-- The widest text that padding makes. -/
def maxPadWidth : Nat := 1024

/-- A text padded in front to a width, with zeros unless a character is given. -/
def padLeft (args : List Scalar) : Outcome := do
  let chars := charsArgument args 0
  let width := (← integerArgument "PADLEFT" args 1).toNat
  if maxPadWidth < width then .error (.invalidArgument "PADLEFT" (.tooWide width maxPadWidth))
  else
    let pad := if 2 < args.length then (charsArgument args 2).head? else some '0'
    let padding := match pad with
      | some c => List.replicate (width - chars.length) c
      | none => []
    return .text (String.ofList (padding ++ chars))

/-- An amount in Chinese capitals. -/
def toChinese (args : List Scalar) : Outcome := do
  let x ← numberArgument "TOCHINESE" args 0
  match Amount.chinese? x with
  | some s => return .text s
  | none => .error (.invalidArgument "TOCHINESE" (.amountOutOfRange x))

/-- An amount of money. -/
def currency (args : List Scalar) : Outcome := do
  let x ← numberArgument "CURRENCY" args 0
  let symbol :=
    if 1 < args.length then String.ofList (charsArgument args 1) else Amount.defaultSymbol
  let decimals ← decimalsArgument "CURRENCY" args 2 2
  return .text (Amount.currency x symbol decimals)

/-- The formatting functions. -/
def functions : List FunctionDef :=
  let define (name : String) (arity : Arity) (description : String)
      (run : List Scalar → Outcome) : FunctionDef :=
    { name, arity, category := .format, description, body := .eager fun args _ => run args }
  [define "FORMAT" (.exactly 2) "Format a number (#,##0.00, 0%) or a date (yyyy-MM-dd)" format,
   define "FIXED" (.between 1 2) "Fixed number of decimals, no separators" fixed,
   define "PADLEFT" (.between 2 3) "Left-pad to a width (default pad 0)" padLeft,
   define "TOCHINESE" (.exactly 1) "Amount in upper-case Chinese (RMB)" toChinese,
   define "CURRENCY" (.between 1 3) "Currency symbol with thousands separators" currency]

end BandedReport.Formula.Format
