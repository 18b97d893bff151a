import BandedReport.Print.Pass

/-!
# Print sessions

A session prints several reports with one printer and keeps the formulas that it has read from one
call to the next. Printing a report begins with an empty cache; splitting rows into pages uses the
cache as it is.
-/

namespace BandedReport

/-- A printer and the formulas that it has read. -/
structure PrintSession (κ : Type) where
  printer : Printer κ
  cache : ParseCache

namespace PrintSession

variable {κ : Type} [Coordinate κ]

/-- A session in which no formula was read. -/
def start (p : Printer κ) : PrintSession κ := ⟨p, .empty⟩

/-- Split rows into pages. -/
def paginate (s : PrintSession κ) (d : Design κ) (master : Record) (rows : List Record) :
    List RowRange × PrintSession κ :=
  let pass : Cached (List (List κ)) := s.printer.rowHeights d master rows
  let (heights, cache) := (pass.run s.cache).value
  (s.printer.pagesFor d heights, { s with cache })

/-- Print a report. -/
def print (s : PrintSession κ) (d : Design κ) (master : Record) (rows : List Record) :
    Report κ × PrintSession κ :=
  let pass : Cached (List (PrintedPage κ)) := s.printer.printPages d master rows
  let printed := pass.run .empty
  (⟨printed.value.1, printed.tally⟩, { s with cache := printed.value.2 })

end PrintSession

end BandedReport
