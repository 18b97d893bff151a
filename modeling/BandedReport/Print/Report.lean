import BandedReport.Canvas.Band
import BandedReport.Canvas.Rect
import BandedReport.Formula.Error

/-!
# Printed reports

What a print pass produces: pages of bands of controls, and a tally of what was done.
-/

namespace BandedReport

/-- What is counted during a print pass. -/
structure Tally where
  pages : Nat
  bands : Nat
  objects : Nat
  /-- Formulas that were evaluated, those of bands included. -/
  formulas : Nat
  /-- Controls that show their fallback text because the data lack a field. -/
  missingFields : Nat
  /-- Controls that failed for another reason. -/
  errors : Nat
  /-- Controls that are not printed. -/
  hidden : Nat
deriving DecidableEq

namespace Tally

/-- Nothing was counted. -/
def zero : Tally := ⟨0, 0, 0, 0, 0, 0, 0⟩

/-- What was counted in two parts of a pass. -/
def add (a b : Tally) : Tally :=
  ⟨a.pages + b.pages, a.bands + b.bands, a.objects + b.objects, a.formulas + b.formulas,
    a.missingFields + b.missingFields, a.errors + b.errors, a.hidden + b.hidden⟩

instance : Add Tally := ⟨add⟩

theorem add_zero (a : Tally) : a + zero = a := rfl

theorem zero_add (a : Tally) : zero + a = a := by
  change add zero a = a
  simp [add, zero]

theorem add_assoc (a b c : Tally) : a + b + c = a + (b + c) := by
  change add (add a b) c = add a (add b c)
  simp [add, Nat.add_assoc]

end Tally

/-- Why a control shows a fallback text. -/
inductive Degradation where
  | missingField (name : String)
  | error (cause : Formula.Error)

/-- A printed control. -/
structure PrintedObject (κ : Type) where
  id : String
  typeName : String
  zIndex : Int
  /-- The display box, measured from the top of its band. -/
  bounds : Rect κ
  text : String
  degraded : Option Degradation

/-- A printed band. -/
structure PrintedBand (κ : Type) where
  bandId : String
  name : String
  kind : BandKind
  /-- The number of the row in the whole data, for detail bands. -/
  rowIndex : Option Nat
  height : κ
  background : Option Color
  /-- The printed controls, lowest first. -/
  objects : List (PrintedObject κ)

/-- Consecutive rows: from `start` up to, but not including, `stop`. -/
structure RowRange where
  start : Nat
  stop : Nat
deriving DecidableEq

/-- A printed page. -/
structure PrintedPage (κ : Type) where
  /-- The number of the page, from 1. -/
  number : Nat
  rows : RowRange
  bands : List (PrintedBand κ)

/-- A printed report. -/
structure Report (κ : Type) where
  pages : List (PrintedPage κ)
  tally : Tally

/-- The height of all bands of a page. -/
def PrintedPage.height {κ : Type} [Coordinate κ] (p : PrintedPage κ) : κ :=
  Coordinate.sum (p.bands.map (·.height))

/-! ## Text -/

/-- The line of a band: its name, the number of its row, and the texts of its controls. -/
def PrintedBand.line {κ : Type} (b : PrintedBand κ) : String :=
  let texts := (b.objects.map (·.text)).filter (· != "")
  let row := match b.rowIndex with
    | some i => s!" #{i}"
    | none => ""
  let content := if texts.isEmpty then "" else " " ++ " | ".intercalate texts
  "[" ++ b.name ++ row ++ "]" ++ content ++ "\n"

/-- The lines of a page. -/
def PrintedPage.toText {κ : Type} (p : PrintedPage κ) (total : Nat) : String :=
  s!"--- Page {p.number} of {total} ---\n" ++ String.join (p.bands.map (·.line))

/-- The text of a report. -/
def Report.toText {κ : Type} (r : Report κ) : String :=
  String.join (r.pages.map fun p => p.toText r.pages.length)

end BandedReport
