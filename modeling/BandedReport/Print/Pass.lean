import BandedReport.Formula.Evaluation
import BandedReport.Print.Counted
import BandedReport.Print.Paging
import BandedReport.Print.Value

/-!
# The print pass

A design is printed against a master record and rows of data. The heights of all detail bands are
computed first and the rows are split into pages. Then the pages are printed in order: header
bands, the detail bands of every row, summary bands and footer bands. A formula that fails never
stops the pass: its control shows a fallback text, and its band the designed height or no
background.
-/

namespace BandedReport

open Formula (Context Outcome Registry)
open Printing (count readFormula)

/-- What a print pass needs besides a design and data. -/
structure Printer (κ : Type) where
  registry : Registry
  options : PrintOptions κ
  /-- The time at which the report is made. -/
  now : DateTime

variable {κ : Type} [Coordinate κ]

/-! ## Values without effects -/

/-- The height that a formula gives to a band: a finite number, never below zero. Otherwise the
band has its designed height. -/
def Band.heightFrom (b : Band κ) (outcome : Outcome) : κ :=
  match outcome with
  | .error _ => b.height
  | .ok value =>
    match value.asNumber?.filter Float.isFinite with
    | some x => larger (Coordinate.ofFloat x) (Coordinate.ofNat 0)
    | none => b.height

/-- The color that a formula gives to a band. -/
def backgroundFrom (outcome : Outcome) : Option Color :=
  match outcome with
  | .error _ => none
  | .ok value => Color.readChars? value.displayChars

/-- The text of a control whose value is known, or why it has none. -/
def PrintOptions.textFor (o : PrintOptions κ) (outcome : Outcome) (format : ValueFormat)
    (fallback : String) : String × Option Degradation :=
  match outcome with
  | .ok value => (format.print value, none)
  | .error (.missingField name) =>
    (o.missingFieldText.getD fallback, some (.missingField name))
  | .error e => (o.errorText, some (.error e))

/-- How a degradation is counted. -/
def Degradation.tally : Degradation → Tally
  | missingField _ => { Tally.zero with missingFields := 1 }
  | error _ => { Tally.zero with errors := 1 }

/-- The controls of a band as they are printed, lowest first; of equal ones the earlier is lower. -/
def Band.printOrder (b : Band κ) : List (Control κ) :=
  b.objects.mergeSort fun c d => c.zIndex ≤ d.zIndex

/-- Is a summary band printed on a page? -/
def Band.isPrintedOn (b : Band κ) (pageNumber totalPages : Nat) : Bool :=
  match b.summaryMode with
  | .everyPage => true
  | .lastPage => pageNumber == totalPages

namespace Printer

/-- The context of a row while the pages are not known yet. -/
def layoutContext (p : Printer κ) (master : Record) (rows : List Record) (index : Nat)
    (row : Record) : Context :=
  { master, detailRow := some row, allRows := rows, pageRows := [], rowIndex := index,
    pageNumber := 1, totalPages := 1, now := p.now }

/-- The context of a page. -/
def pageContext (p : Printer κ) (master : Record) (rows : List Record) (range : RowRange)
    (pageNumber totalPages : Nat) : Context :=
  { master, detailRow := none, allRows := rows
    pageRows := (rows.drop range.start).take (range.stop - range.start)
    rowIndex := range.start, pageNumber, totalPages, now := p.now }

/-! ## The pass -/

variable {m : Type → Type} [Printing m]

/-- The value of a formula. -/
def evaluate (p : Printer κ) (formula : String) (ctx : Context) : m Outcome := do
  count { Tally.zero with formulas := 1 }
  match ← readFormula formula with
  | .ok e => return e.evaluate p.registry ctx
  | .error e => return .error e

/-- The height of a band. -/
def bandHeight (p : Printer κ) (band : Band κ) (ctx : Context) : m κ :=
  match band.rowHeightFormula with
  | none => return band.height
  | some formula => return band.heightFrom (← p.evaluate formula ctx)

/-- The background of a band. -/
def background (p : Printer κ) (band : Band κ) (ctx : Context) : m (Option Color) :=
  match band.backgroundColorFormula with
  | none => return none
  | some formula => return backgroundFrom (← p.evaluate formula ctx)

/-- The text of a control. -/
def bodyText (p : Printer κ) (body : Body κ) (ctx : Context) :
    m (String × Option Degradation) :=
  let plain (value : Scalar) := p.options.textFor (.ok value) .general ""
  match body with
  | .box _ _ (.text t) => return plain (.text t)
  | .box _ _ (.field name format fallback) =>
    return p.options.textFor (Formula.resolve name ctx) format fallback
  | .box _ _ (.calculated formula format fallback) =>
    return p.options.textFor (← p.evaluate formula ctx) format fallback
  | .box _ _ (.image source) => return plain (.text source)
  | .box _ _ (.barcode _ data) => return plain (.text data)
  | .box _ _ (.shape ..) | .line _ => return plain .null

/-- Print a control. -/
def printObject (p : Printer κ) (band : Band κ) (ctx : Context) (c : Control κ) :
    m (PrintedObject κ) := do
  let (text, degraded) ← p.bodyText c.body ctx
  count { Tally.zero with objects := 1 }
  count ((degraded.map (·.tally)).getD .zero)
  let box := c.displayBox
  return {
    id := c.id, typeName := c.typeName, zIndex := c.zIndex
    bounds := { box with y := box.y - band.top }
    text, degraded }

/-- Print a band that has a height. -/
def printBandOfHeight (p : Printer κ) (ctx : Context) (rowIndex : Option Nat) (height : κ)
    (band : Band κ) : m (PrintedBand κ) := do
  let background ← p.background band ctx
  let (shown, hidden) := band.printOrder.partition (·.printVisible)
  count { Tally.zero with bands := 1, hidden := hidden.length }
  let objects ← shown.mapM (p.printObject band ctx)
  return { bandId := band.id, name := band.name, kind := band.kind, rowIndex, height, background,
           objects }

/-- Print a band that is no detail band. -/
def printBand (p : Printer κ) (ctx : Context) (band : Band κ) : m (PrintedBand κ) := do
  let height ← p.bandHeight band ctx
  p.printBandOfHeight ctx none height band

/-- Print the detail bands of a row, whose heights are known. -/
def printRow (p : Printer κ) (d : Design κ) (pageCtx : Context) (index : Nat) (row : Record)
    (heights : List κ) : m (List (PrintedBand κ)) :=
  let ctx := { pageCtx.forRow row with rowIndex := index }
  ((d.bandsOfKind .detail).zip heights).mapM fun (band, height) =>
    p.printBandOfHeight ctx (some index) height band

/-- The heights of the detail bands of every row. -/
def rowHeights (p : Printer κ) (d : Design κ) (master : Record) (rows : List Record) :
    m (List (List κ)) :=
  rows.zipIdx.mapM fun (row, index) =>
    (d.bandsOfKind .detail).mapM fun band =>
      p.bandHeight band (p.layoutContext master rows index row)

/-- The pages for the heights of the detail bands of every row. -/
def pagesFor (p : Printer κ) (d : Design κ) (heights : List (List κ)) : List RowRange :=
  (Paging.choose p.options d.settings).split (heights.map Coordinate.sum)

/-- Print a page. -/
def printPage (p : Printer κ) (d : Design κ) (master : Record) (rows : List Record)
    (heights : List (List κ)) (totalPages : Nat) (range : RowRange) (pageNumber : Nat) :
    m (PrintedPage κ) := do
  let ctx := p.pageContext master rows range pageNumber totalPages
  count { Tally.zero with pages := 1 }
  let headers ← (d.bandsOfKind .header).mapM (p.printBand ctx)
  let onPage := ((rows.zip heights).zipIdx.drop range.start).take (range.stop - range.start)
  let details ← onPage.mapM fun ((row, heights), index) => p.printRow d ctx index row heights
  let summaries ←
    ((d.bandsOfKind .summary).filter (·.isPrintedOn pageNumber totalPages)).mapM (p.printBand ctx)
  let footers ← (d.bandsOfKind .footer).mapM (p.printBand ctx)
  return ⟨pageNumber, range, headers ++ details.flatten ++ summaries ++ footers⟩

/-- Print all pages. -/
def printPages (p : Printer κ) (d : Design κ) (master : Record) (rows : List Record) :
    m (List (PrintedPage κ)) := do
  let heights ← p.rowHeights d master rows
  let ranges := p.pagesFor d heights
  ranges.zipIdx.mapM fun (range, i) =>
    p.printPage d master rows heights ranges.length range (i + 1)

/-- The pages into which the rows are split. -/
def paginate (p : Printer κ) (d : Design κ) (master : Record) (rows : List Record) :
    List RowRange :=
  p.pagesFor d (p.rowHeights d master rows : Counted (List (List κ))).value

/-- Print a report. -/
def print (p : Printer κ) (d : Design κ) (master : Record) (rows : List Record) : Report κ :=
  let printed : Counted (List (PrintedPage κ)) := p.printPages d master rows
  ⟨printed.value, printed.tally⟩

end Printer

end BandedReport
