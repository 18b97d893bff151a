import BandedReport.Formula.Error
import BandedReport.Record

/-!
# Evaluation contexts

What a formula can see while it is evaluated, and how a name in braces is resolved: first as a
system variable, then as a field of the current row, then as a field of the master record.
-/

namespace BandedReport.Formula

/-- The result of an evaluation. -/
abbrev Outcome := Except Error Scalar

/-- Everything that a formula can see. -/
structure Context where
  /-- The master record. -/
  master : Record
  /-- The current row, inside a detail band. -/
  detailRow : Option Record
  /-- Every row of the data. -/
  allRows : List Record
  /-- The rows of the current page. -/
  pageRows : List Record
  /-- The number of the current row in the whole data, from 0. -/
  rowIndex : Nat
  /-- The number of the page, from 1. -/
  pageNumber : Nat
  totalPages : Nat
  /-- The time at which the report is made. -/
  now : DateTime

namespace Context

/-- A context over a master record: no rows, page 1 of 1. -/
def ofMaster (master : Record) (now : DateTime) : Context :=
  { master, detailRow := none, allRows := [], pageRows := [], rowIndex := 0, pageNumber := 1,
    totalPages := 1, now }

/-- The same context on another row. -/
def forRow (ctx : Context) (row : Record) : Context := { ctx with detailRow := some row }

end Context

/-! ## System variables -/

/-- The names that every formula may use. -/
def systemVariables : List String := [
  "currentDate", "currentTime", "currentDateTime", "pageNumber", "totalPages", "rowIndex",
  "rowNumber", "rowCount", "pageRowCount"]

/-- Is the name one of a system variable? -/
def isSystemVariable (name : String) : Bool := systemVariables.contains name

/-- The clock time as text. -/
def clockText (d : DateTime) : String :=
  String.ofList
    (padded 2 d.time.hour ++ ':' :: padded 2 d.time.minute ++ ':' :: padded 2 d.time.second)

/-- The value of a system variable. -/
def systemValue? (name : String) (ctx : Context) : Option Scalar :=
  match name with
  | "currentDate" => some (.date ctx.now.startOfDay)
  | "currentTime" => some (.text (clockText ctx.now))
  | "currentDateTime" => some (.date ctx.now.wholeSeconds)
  | "pageNumber" => some (.ofNat ctx.pageNumber)
  | "totalPages" => some (.ofNat ctx.totalPages)
  | "rowIndex" => some (.ofNat ctx.rowIndex)
  | "rowNumber" => some (.ofNat (ctx.rowIndex + 1))
  | "rowCount" => some (.ofNat ctx.allRows.length)
  | "pageRowCount" => some (.ofNat ctx.pageRows.length)
  | _ => none

/-- The value of a field: the current row comes before the master record. -/
def Context.field? (ctx : Context) (name : String) : Option Scalar :=
  (ctx.detailRow.bind (·.get? name)).or (ctx.master.get? name)

/-- The value of a name in braces. -/
def resolve (name : String) (ctx : Context) : Outcome :=
  match (systemValue? name ctx).or (ctx.field? name) with
  | some value => .ok value
  | none => .error (.missingField name)

end BandedReport.Formula
