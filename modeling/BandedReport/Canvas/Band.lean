import BandedReport.Canvas.Control

/-!
# Bands

The horizontal strips of a report design. Bands are stacked from top to bottom in the order of the
list; the lower boundary of a band is `actualBottom`.
-/

namespace BandedReport

/-- The part a band plays on a page. -/
inductive BandKind where
  /-- At the top of every page. -/
  | header
  /-- Once for every row. -/
  | detail
  /-- Totals, on the last page or on every page. -/
  | summary
  /-- At the bottom of every page. -/
  | footer
deriving DecidableEq

/-- On which pages a summary is printed. -/
inductive SummaryMode where
  | lastPage
  | everyPage
deriving DecidableEq

/-- A band of the design surface. -/
structure Band (κ : Type) where
  id : String
  name : String
  kind : BandKind
  top : κ
  /-- The lower boundary, as older documents have it. -/
  bottom : κ
  /-- The lower boundary. -/
  actualBottom : κ
  objects : List (Control κ)
  rowHeightFormula : Option String
  backgroundColorFormula : Option String
  summaryMode? : Option SummaryMode
deriving BEq

namespace Band

variable {κ : Type} [Coordinate κ]

/-- An empty band. -/
def ofHeight (id name : String) (kind : BandKind) (top height : κ) : Band κ :=
  let bottom := top + larger height (Coordinate.ofNat 0)
  { id, name, kind, top, bottom, actualBottom := bottom, objects := []
    rowHeightFormula := none, backgroundColorFormula := none, summaryMode? := none }

/-- The designed height, never below zero. -/
def height (b : Band κ) : κ := larger (b.actualBottom - b.top) (Coordinate.ofNat 0)

/-- The control of an identifier. -/
def object? (b : Band κ) (id : String) : Option (Control κ) := b.objects.find? (·.id == id)

/-- The index of the control of an identifier. -/
def objectIndex? (b : Band κ) (id : String) : Option Nat := b.objects.findIdx? (·.id == id)

/-- The pages on which the band is printed if it is a summary. -/
def summaryMode (b : Band κ) : SummaryMode := b.summaryMode?.getD .lastPage

end Band

end BandedReport
