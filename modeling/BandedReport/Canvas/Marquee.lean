import BandedReport.Canvas.Rect
import BandedReport.Canvas.Selection

/-!
# Marquee selection

Selecting controls with a rectangle: those whose display box meets it, touching included.
-/

namespace BandedReport

variable {κ : Type} [Coordinate κ]

/-- What becomes of the controls that were selected before. -/
inductive MarqueeMode where
  | replace
  | add
deriving DecidableEq

/-- The controls that a rectangle meets, in the order of the bands and of the controls in them. -/
def hitTest (bands : List (Band κ)) (rect : Rect κ) : List ObjectRef :=
  let area := rect.normalized
  bands.flatMap fun band =>
    (band.objects.filter fun c => c.displayBox.intersects area).map fun c => ⟨band.id, c.id⟩

/-- Append references that are not in a selection. -/
def addToSelection (selection : List ObjectRef) : List ObjectRef → List ObjectRef
  | [] => selection
  | hit :: rest =>
    addToSelection (if selection.contains hit then selection else selection ++ [hit]) rest

/-- The selection after a rectangle was drawn. -/
def marqueeSelect (bands : List (Band κ)) (current : List ObjectRef) (rect : Rect κ)
    (mode : MarqueeMode) : List ObjectRef :=
  match mode with
  | .replace => hitTest bands rect
  | .add => addToSelection current (hitTest bands rect)

end BandedReport
