import BandedReport.Design
import BandedReport.Print.Report

/-!
# Paging

The rows of a report are split into pages before anything is printed: a fixed number of rows on a
page, or as many rows as fit into a height, or all on one page.
-/

namespace BandedReport

/-- How rows are split into pages. -/
inductive Paging (κ : Type) where
  | onePage
  /-- A fixed number of rows on every page. -/
  | byRows (count : Nat)
  /-- As many rows as fit into a height, but at least one. -/
  | byHeight (limit : κ)

/-- Choices for a print pass, which come before those of the design. -/
structure PrintOptions (κ : Type) where
  rowsPerPage : Option Nat
  pageBodyHeight : Option κ
  /-- The text for missing fields, instead of the controls' own fallbacks. -/
  missingFieldText : Option String
  /-- The text for controls whose formula failed. -/
  errorText : String

/-- No choices. -/
def PrintOptions.empty {κ : Type} : PrintOptions κ := ⟨none, none, none, ""⟩

variable {κ : Type} [Coordinate κ]

namespace Paging

/-- The way that options and settings ask for. A number of rows comes before a height, and both
count only when they are positive. -/
def choose (o : PrintOptions κ) (s : DesignSettings κ) : Paging κ :=
  let count := (o.rowsPerPage.or s.rowsPerPage).filter fun n => 0 < n
  let height := (o.pageBodyHeight.or s.pageBodyHeight).filter fun h => Coordinate.ofNat 0 < h
  match count, height with
  | some n, _ => byRows n
  | none, some h => byHeight h
  | none, none => onePage

/-- The pages of `total` rows with `count` rows each; the last may hold fewer. -/
def splitRows (count total : Nat) : List RowRange :=
  (List.range ((total + count - 1) / count)).map fun i =>
    ⟨i * count, min (i * count + count) total⟩

/-- The pages of rows of the given heights, the first of which has number `next`. The present page
begins with row `start` and its rows so far have the height `used`. -/
def splitHeights (limit : κ) (start next : Nat) (used : κ) : List κ → List RowRange
  | [] => [⟨start, next⟩]
  | h :: rest =>
    if start < next && limit < used + h then
      ⟨start, next⟩ :: splitHeights limit next (next + 1) (Coordinate.ofNat 0 + h) rest
    else splitHeights limit start (next + 1) (used + h) rest

/-- The pages of rows of the given heights; without rows there is one page. -/
def split (p : Paging κ) (heights : List κ) : List RowRange :=
  if heights.isEmpty then [⟨0, 0⟩]
  else
    match p with
    | onePage => [⟨0, heights.length⟩]
    | byRows count => splitRows count heights.length
    | byHeight limit => splitHeights limit 0 0 (Coordinate.ofNat 0) heights

end Paging

end BandedReport
