import BandedReport.Canvas.Selection

/-!
# Moving and resizing controls

Every change of a control ends with `Control.normalize`, which keeps the floors of the geometry:
positions are finite, boxes are at least twenty wide and high, borders and strokes are not
negative, and the place in the stacking order is at least one.
-/

namespace BandedReport

variable {κ : Type} [Coordinate κ]

open Coordinate (finiteOr ofNat)

/-- A size that is finite and at least the least size of a box. -/
def flooredSize (x : κ) : κ := larger (finiteOr x (ofNat minControlSize)) (ofNat minControlSize)

/-- A width of a border or a stroke that is finite and not negative. -/
def flooredWidth (x : κ) : κ := larger (finiteOr x (ofNat 0)) (ofNat 0)

/-- Bring a box or a line to the floors of the geometry. -/
def Body.normalize : Body κ → Body κ
  | .box f b content =>
    .box
      ⟨finiteOr f.x (ofNat 0), finiteOr f.y (ofNat 0), flooredSize f.width, flooredSize f.height⟩
      { b with width := flooredWidth b.width } content
  | .line l => .line { l with strokeWidth := flooredWidth l.strokeWidth }

/-- Shift a box or a line. -/
def Body.shift (dx dy : κ) : Body κ → Body κ
  | .box f b content => .box { f with x := f.x + dx, y := f.y + dy } b content
  | .line l =>
    .line { l with x1 := l.x1 + dx, x2 := l.x2 + dx, y1 := l.y1 + dy, y2 := l.y2 + dy }

namespace Control

/-- Bring a control to the floors of the geometry. -/
def normalize (c : Control κ) : Control κ :=
  { c with zIndex := max c.zIndex minZIndex, body := c.body.normalize }

/-- Shift a control; a line is shifted with both endpoints. -/
def translate (c : Control κ) (dx dy : κ) : Control κ :=
  normalize { c with body := c.body.shift dx dy }

end Control

/-- Shift every selected control by the same distance. -/
def moveSelection (bands : List (Band κ)) (selection : List ObjectRef) (dx dy : κ) :
    List (Band κ) :=
  replaceObjects bands ((resolve bands selection).map fun s =>
    ⟨s.bandIndex, s.objectIndex, s.object.translate dx dy⟩)

/-! ## Resize handles -/

/-- The handles by which a control is resized. -/
inductive ResizeHandle where
  | topLeft | top | topRight | right | bottomRight | bottom | bottomLeft | left
  /-- The first endpoint of a line. -/
  | lineStart
  /-- The second endpoint of a line. -/
  | lineEnd
deriving DecidableEq

namespace ResizeHandle

def movesLeft (h : ResizeHandle) : Bool := h == topLeft || h == left || h == bottomLeft
def movesRight (h : ResizeHandle) : Bool := h == topRight || h == right || h == bottomRight
def movesTop (h : ResizeHandle) : Bool := h == topLeft || h == top || h == topRight
def movesBottom (h : ResizeHandle) : Bool := h == bottomLeft || h == bottom || h == bottomRight

end ResizeHandle

/-- Drag the beginning or the end of an extent, along one axis; the other end stays. -/
def resizeExtent (start size : κ) (movesStart movesEnd : Bool) (delta : κ) : κ × κ :=
  let stop := start + size
  let (start, size) :=
    if movesStart then
      let size := larger (size - delta) (ofNat minControlSize)
      (stop - size, size)
    else (start, size)
  if movesEnd then (start, larger (size + delta) (ofNat minControlSize)) else (start, size)

/-- Drag a handle of a box. -/
def Frame.drag (f : Frame κ) (handle : ResizeHandle) (dx dy : κ) : Frame κ :=
  let (x, width) := resizeExtent f.x f.width handle.movesLeft handle.movesRight dx
  let (y, height) := resizeExtent f.y f.height handle.movesTop handle.movesBottom dy
  ⟨x, y, width, height⟩

/-- Drag an endpoint of a line; other handles leave it alone. -/
def Line.drag (l : Line κ) (handle : ResizeHandle) (dx dy : κ) : Line κ :=
  match handle with
  | .lineStart => { l with x1 := l.x1 + dx, y1 := l.y1 + dy }
  | .lineEnd => { l with x2 := l.x2 + dx, y2 := l.y2 + dy }
  | _ => l

/-- Drag a handle of a box or a line. -/
def Body.drag (handle : ResizeHandle) (dx dy : κ) : Body κ → Body κ
  | .box f b content => .box (f.drag handle dx dy) b content
  | .line l => .line (l.drag handle dx dy)

/-- Drag a handle of a control. -/
def Control.resize (c : Control κ) (handle : ResizeHandle) (dx dy : κ) : Control κ :=
  Control.normalize { c with body := c.body.drag handle dx dy }

end BandedReport
