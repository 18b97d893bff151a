import BandedReport.Canvas.Control

/-!
# Rectangles and display boxes

The display box of a control is the rectangle that it is seen to occupy: a box grows by its border
and its padding on both sides, a line spans its endpoints.
-/

namespace BandedReport

/-- A rectangle with sides parallel to the axes. -/
structure Rect (κ : Type) where
  x : κ
  y : κ
  width : κ
  height : κ
deriving BEq

variable {κ : Type} [Coordinate κ]

namespace Rect

/-- The rectangle between two corners, in any order. -/
def ofCorners (x1 y1 x2 y2 : κ) : Rect κ :=
  ⟨smaller x1 x2, smaller y1 y2, Coordinate.abs (x2 - x1), Coordinate.abs (y2 - y1)⟩

def left (r : Rect κ) : κ := r.x
def right (r : Rect κ) : κ := r.x + r.width
def top (r : Rect κ) : κ := r.y
def bottom (r : Rect κ) : κ := r.y + r.height
def centerX (r : Rect κ) : κ := r.x + r.width / Coordinate.ofNat 2
def centerY (r : Rect κ) : κ := r.y + r.height / Coordinate.ofNat 2

/-- The same rectangle with a size that is not negative. -/
def normalized (r : Rect κ) : Rect κ := ofCorners r.x r.y (r.x + r.width) (r.y + r.height)

/-- Do two rectangles meet? Touching edges do. -/
def intersects (r s : Rect κ) : Bool :=
  r.left ≤ s.right && s.left ≤ r.right && r.top ≤ s.bottom && s.top ≤ r.bottom

/-- Does a point lie in the rectangle? Its edges belong to it. -/
def containsPoint (r : Rect κ) (x y : κ) : Bool :=
  r.left ≤ x && x ≤ r.right && r.top ≤ y && y ≤ r.bottom

end Rect

namespace Control

/-- What border and padding add to the width and the height of a control. -/
def chromeSize (c : Control κ) : κ :=
  match c.body with
  | .box _ border _ => Coordinate.ofNat 2 * (border.width + Coordinate.ofNat boxPadding)
  | .line _ => Coordinate.ofNat 0

/-- The rectangle that a control is seen to occupy. -/
def displayBox (c : Control κ) : Rect κ :=
  match c.body with
  | .box frame _ _ =>
    ⟨frame.x, frame.y, frame.width + c.chromeSize, frame.height + c.chromeSize⟩
  | .line l => .ofCorners l.x1 l.y1 l.x2 l.y2

end Control

end BandedReport
