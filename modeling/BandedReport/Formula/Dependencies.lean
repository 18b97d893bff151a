import BandedReport.Formula.Evaluation

/-!
# Dependencies

What the value of an expression depends on: names, functions, and whether it reads the rows of the
whole data, the rows of the page, or the clock. A formula that does not read the rows of the page
can be evaluated before the pages are known.
-/

namespace BandedReport.Formula

/-- What an expression depends on. -/
structure Dependencies where
  /-- Names in braces, in the order of first appearance. -/
  references : List String
  /-- Called functions, in the order of first appearance. -/
  functions : List String
  usesAllRows : Bool
  usesPageRows : Bool
  usesClock : Bool
deriving DecidableEq

namespace Dependencies

/-- No dependencies. -/
def empty : Dependencies := ⟨[], [], false, false, false⟩

/-- Add a name in braces. -/
def addReference (d : Dependencies) (name : String) : Dependencies :=
  { d with
    references := Expr.pushNew d.references name
    usesAllRows := d.usesAllRows || name == "rowCount"
    usesPageRows := d.usesPageRows || name == "pageRowCount"
    usesClock := d.usesClock || ["currentDate", "currentTime", "currentDateTime"].contains name }

/-- The rows that a function aggregates over. -/
def aggregateScope? (r : Registry) (function : String) : Option RowScope :=
  match (r.get? function).map FunctionDef.body with
  | some (.aggregate scope _) => some scope
  | _ => none

/-- Add a called function. -/
def addFunction (r : Registry) (d : Dependencies) (function : String) : Dependencies :=
  { d with
    functions := Expr.pushNew d.functions function
    usesAllRows := d.usesAllRows || aggregateScope? r function == some .all
    usesPageRows := d.usesPageRows || aggregateScope? r function == some .page
    usesClock := d.usesClock || ["NOW", "TODAY"].contains function }

/-- Add the dependencies of an expression to those found before. -/
def visit (r : Registry) (d : Dependencies) : Expr → Dependencies
  | .literal _ | .wildcard => d
  | .reference name => d.addReference name
  | .negate e => visit r d e
  | .binary _ left right => visit r (visit r d left) right
  | .call function args => visitAll (addFunction r d function) args
where
  /-- Add the dependencies of a list of arguments. -/
  visitAll (d : Dependencies) : List Expr → Dependencies
    | [] => d
    | e :: es => visitAll (visit r d e) es

/-- The dependencies of an expression. -/
def ofExpr (r : Registry) (e : Expr) : Dependencies := visit r empty e

end Dependencies

end BandedReport.Formula
