import BandedReport.Formula.Registry
import BandedReport.Extremum

/-!
# Aggregates

Folds over the values that an expression has on the rows. Without rows every aggregate is zero.
-/

namespace BandedReport.Formula.Aggregate

/-- The sum of numbers, added from left to right. -/
def sumOf (numbers : List Float) : Float := numbers.foldl (· + ·) 0.0

/-- The numbers among the values; blank values count as zero, other text and dates do not count. -/
def numbers (values : List Scalar) : List Float := values.filterMap Scalar.asNumber?

/-- The numbers among the values that are not blank. -/
def presentNumbers (values : List Scalar) : List Float :=
  numbers (values.filter (!·.isBlank))

/-- The number of values that are not blank. -/
def count (values : List Scalar) : Scalar := .ofNat (values.countP (!·.isBlank))

/-- The sum of the numbers. -/
def sum (values : List Scalar) : Scalar := .number (sumOf (numbers values))

/-- The sum of the numbers divided by the number of all values. -/
def average (values : List Scalar) : Scalar :=
  if values.isEmpty then .number 0.0
  else .number (sumOf (numbers values) / Float.ofNat values.length)

/-- Fold a list with its first element to begin with; zero for the empty list. -/
def foldNumbers (f : Float → Float → Float) : List Float → Float
  | [] => 0.0
  | x :: rest => rest.foldl f x

/-- The largest of the numbers. -/
def maximum (values : List Scalar) : Scalar := .number (foldNumbers larger (presentNumbers values))

/-- The smallest of the numbers. -/
def minimum (values : List Scalar) : Scalar := .number (foldNumbers smaller (presentNumbers values))

/-- The names of the aggregates over all rows and over the rows of a page, what they compute and
how they are described. -/
def table : List (String × String × (List Scalar → Scalar) × String) := [
  ("COUNT", "PAGECOUNT", count, "Number of rows with a value; (*) counts every row"),
  ("SUM", "PAGESUM", sum, "Sum over rows, non-numeric values count as 0"),
  ("AVG", "PAGEAVG", average, "Average over rows, 0 when there are none"),
  ("MAX", "PAGEMAX", maximum, "Largest numeric value, 0 when there is none"),
  ("MIN", "PAGEMIN", minimum, "Smallest numeric value, 0 when there is none")]

/-- An aggregate function. -/
def define (name : String) (scope : RowScope) (reduce : List Scalar → Scalar)
    (description : String) : FunctionDef :=
  { name, arity := .exactly 1, category := .aggregate, description
    body := .aggregate scope reduce }

/-- The aggregate functions. -/
def functions : List FunctionDef :=
  table.flatMap fun (all, page, reduce, description) => [
    define all .all reduce (description ++ " (all rows)"),
    define page .page reduce (description ++ " (current page)")]

end BandedReport.Formula.Aggregate
