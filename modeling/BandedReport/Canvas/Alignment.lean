import BandedReport.Canvas.Movement
import BandedReport.Canvas.Rect

/-!
# Aligning, distributing and equalizing

Operations on a selection that work on display boxes. The first control of the selection is the
reference, to which the others are brought.
-/

namespace BandedReport

variable {κ : Type} [Coordinate κ]

/-! ## Alignment -/

/-- The edge or the center on which controls are aligned. -/
inductive Alignment where
  | left | right | top | bottom
  /-- The same center from left to right. -/
  | horizontalCenter
  /-- The same center from top to bottom. -/
  | verticalCenter
deriving DecidableEq

/-- The shift that brings a box onto the edge or the center of another. -/
def Alignment.delta (a : Alignment) (reference target : Rect κ) : κ × κ :=
  match a with
  | left => (reference.left - target.left, Coordinate.ofNat 0)
  | right => (reference.right - target.right, Coordinate.ofNat 0)
  | top => (Coordinate.ofNat 0, reference.top - target.top)
  | bottom => (Coordinate.ofNat 0, reference.bottom - target.bottom)
  | horizontalCenter => (reference.centerX - target.centerX, Coordinate.ofNat 0)
  | verticalCenter => (Coordinate.ofNat 0, reference.centerY - target.centerY)

/-- The shifts of all selected controls but the reference. -/
def alignmentDeltas (bands : List (Band κ)) (selection : List ObjectRef) (a : Alignment) :
    List (Selected κ × κ × κ) :=
  match resolve bands selection with
  | [] => []
  | first :: rest =>
    rest.map fun s => (s, a.delta first.object.displayBox s.object.displayBox)

/-- Shift every selected control onto the edge or the center of the first. -/
def align (bands : List (Band κ)) (selection : List ObjectRef) (a : Alignment) :
    List (Band κ) :=
  replaceObjects bands ((alignmentDeltas bands selection a).map fun (s, dx, dy) =>
    ⟨s.bandIndex, s.objectIndex, s.object.translate dx dy⟩)

/-! ## Distribution -/

/-- The direction in which controls are distributed. -/
inductive Axis where
  | horizontal | vertical
deriving DecidableEq

namespace Axis

/-- The edge of a box that comes first along the axis. -/
def leading (axis : Axis) (r : Rect κ) : κ :=
  match axis with
  | horizontal => r.left
  | vertical => r.top

/-- The size of a box along the axis. -/
def extent (axis : Axis) (r : Rect κ) : κ :=
  match axis with
  | horizontal => r.width
  | vertical => r.height

/-- A shift along the axis. -/
def shift (axis : Axis) (distance : κ) : κ × κ :=
  match axis with
  | horizontal => (distance, Coordinate.ofNat 0)
  | vertical => (Coordinate.ofNat 0, distance)

end Axis

/-- The updates that place boxes one gap after the edge reached so far, and after each other. -/
def placeWithGap (axis : Axis) (gap edge : κ) : List (Selected κ × Rect κ) → List (Update κ)
  | [] => []
  | (s, r) :: rest =>
    let target := edge + gap
    let (dx, dy) := axis.shift (target - axis.leading r)
    ⟨s.bandIndex, s.objectIndex, s.object.translate dx dy⟩ ::
      placeWithGap axis gap (target + axis.extent r) rest

/-- Space the selected controls evenly between the two outermost. With fewer than three nothing
changes; the gap is negative when the controls do not fit. -/
def distribute (bands : List (Band κ)) (selection : List ObjectRef) (axis : Axis) :
    List (Band κ) :=
  let items := (resolve bands selection).map fun s => (s, s.object.displayBox)
  let sorted := items.mergeSort fun a b =>
    Coordinate.precedes (axis.leading a.2) (axis.leading b.2)
  match sorted with
  | first :: second :: third :: more =>
    let last := (third :: more).getLast (by simp)
    let span := axis.leading last.2 + axis.extent last.2 - axis.leading first.2
    let total := Coordinate.sum (sorted.map fun item => axis.extent item.2)
    let gap := (span - total) / Coordinate.ofNat (sorted.length - 1)
    let edge := axis.leading first.2 + axis.extent first.2
    replaceObjects bands (placeWithGap axis gap edge (second :: (third :: more).dropLast))
  | _ => bands

/-! ## Equal sizes -/

/-- The dimension that is made equal. -/
inductive SizeDimension where
  | width | height | both
deriving DecidableEq

/-- Give a line another length; its start and its direction stay. A point grows to the right. -/
def Line.withLength (l : Line κ) (length : κ) : Line κ :=
  let current := l.length
  let (ux, uy) :=
    if Coordinate.ofNat 0 < current then ((l.x2 - l.x1) / current, (l.y2 - l.y1) / current)
    else (Coordinate.ofNat 1, Coordinate.ofNat 0)
  { l with x2 := l.x1 + ux * length, y2 := l.y1 + uy * length }

/-- The length that a line takes from a reference: the dimension along its own direction, and for
a diagonal line, if both dimensions are asked for, the length or the diagonal. -/
def Line.lengthFrom? (l : Line κ) (reference : Control κ) (d : SizeDimension) : Option κ :=
  let target := reference.displayBox
  match l.orientation, d with
  | .horizontal, .width => some target.width
  | .vertical, .height => some target.height
  | .diagonal, .both =>
    match reference.line? with
    | some r => some r.length
    | none => some (Coordinate.hypotenuse target.width target.height)
  | _, _ => none

/-- The control with the size of the reference, if its size depends on it. -/
def Control.withSizeOf? (c reference : Control κ) (d : SizeDimension) : Option (Control κ) :=
  match c.body with
  | .line l =>
    (l.lengthFrom? reference d).map fun length =>
      normalize { c with body := .line (l.withLength length) }
  | .box frame border content =>
    let target := reference.displayBox
    let width := if d == .height then frame.width else target.width - c.chromeSize
    let height := if d == .width then frame.height else target.height - c.chromeSize
    some (normalize { c with body := .box { frame with width, height } border content })

/-- Give every selected control the display size of the first. -/
def sameSize (bands : List (Band κ)) (selection : List ObjectRef) (d : SizeDimension) :
    List (Band κ) :=
  match resolve bands selection with
  | [] => bands
  | first :: rest =>
    replaceObjects bands (rest.filterMap fun s =>
      (s.object.withSizeOf? first.object d).map fun c => ⟨s.bandIndex, s.objectIndex, c⟩)

end BandedReport
