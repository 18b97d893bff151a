import BandedReport.Formula.Functions.Argument

/-!
# Date functions

The time of the report, the parts of a date, its text by a pattern, and the days between two
dates.
-/

namespace BandedReport.Formula.Calendar

/-- A part of a date as a number. -/
def part (name : String) (f : Date → Int) (args : List Scalar) : Outcome := do
  let d ← dateArgument name args 0
  return .number (Float.ofInt (f d.date))

/-- The text of a date by a pattern. -/
def dateFormat (args : List Scalar) : Outcome := do
  let d ← dateArgument "DATEFORMAT" args 0
  let pattern :=
    if 1 < args.length then charsArgument args 1 else DateTime.defaultPattern.toList
  return .text (String.ofList (d.formatChars pattern))

/-- The whole days from one date to another; the times of day do not count. -/
def dateDiff (args : List Scalar) : Outcome := do
  let start ← dateArgument "DATEDIFF" args 0
  let stop ← dateArgument "DATEDIFF" args 1
  return .number (Float.ofInt (stop.date.dayNumber - start.date.dayNumber))

/-- The date functions. -/
def functions : List FunctionDef :=
  let define (name : String) (arity : Arity) (description : String)
      (run : List Scalar → Context → Outcome) : FunctionDef :=
    { name, arity, category := .date, description, body := .eager run }
  [define "NOW" (.exactly 0) "Current date and time" fun _ ctx =>
     .ok (.date ctx.now.wholeSeconds),
   define "TODAY" (.exactly 0) "Current date" fun _ ctx => .ok (.date ctx.now.startOfDay),
   define "YEAR" (.exactly 1) "Year of a date" fun args _ => part "YEAR" (·.year) args,
   define "MONTH" (.exactly 1) "Month of a date (1-12)" fun args _ =>
     part "MONTH" (fun d => d.month) args,
   define "DAY" (.exactly 1) "Day of the month" fun args _ => part "DAY" (fun d => d.day) args,
   define "DATEFORMAT" (.between 1 2) "Format a date with yyyy MM dd HH mm ss" fun args _ =>
     dateFormat args,
   define "DATEDIFF" (.exactly 2) "Whole days from the first date to the second" fun args _ =>
     dateDiff args]

end BandedReport.Formula.Calendar
