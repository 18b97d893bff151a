import BandedReport.Canvas.Movement

/-!
# Band boundaries

The lower boundary of a band can be dragged. The bands below follow with all their controls, so
that the stack keeps its gaps; the controls of the dragged band stay. A drag computes every step
from the bands as they were when it began.
-/

namespace BandedReport

variable {κ : Type} [Coordinate κ]

/-- Shift a band and its controls downwards. -/
def Band.shift (b : Band κ) (dy : κ) : Band κ :=
  { b with
    top := b.top + dy
    actualBottom := b.actualBottom + dy
    bottom := b.actualBottom + dy
    objects := b.objects.map fun c => c.translate (Coordinate.ofNat 0) dy }

/-- The lowest value that the boundary of a band may take: its top, and the boundary of the band
before it plus the spacing. -/
def minBottom (before : Option (Band κ)) (band : Band κ) (spacing : κ) : κ :=
  match before with
  | some previous => larger band.top (previous.actualBottom + spacing)
  | none => band.top

/-- Move the boundary of the band at an index; the bands below follow. A target that is not finite
leaves the boundary where it is, and an index without a band changes nothing. -/
def resizeBand (bands : List (Band κ)) (index : Nat) (newBottom spacing : κ) : List (Band κ) :=
  match bands[index]? with
  | none => bands
  | some band =>
    let before := if index == 0 then none else bands[index - 1]?
    let target := Coordinate.finiteOr newBottom band.actualBottom
    let clamped := larger target (minBottom before band spacing)
    let change := clamped - band.actualBottom
    let below := bands.drop (index + 1)
    bands.take index ++
      { band with actualBottom := clamped, bottom := clamped } ::
        (if change == Coordinate.ofNat 0 then below else below.map (·.shift change))

/-- Move a band to a new top with its controls; its height stays. -/
def Band.placeAt (b : Band κ) (top : κ) : Band κ :=
  let dy := top - b.top
  let moved := if dy == Coordinate.ofNat 0 then b else b.shift dy
  let bottom := moved.top + b.height
  { moved with
    actualBottom := bottom
    bottom := bottom
    objects := moved.objects.map Control.normalize }

/-- Lay bands out below a boundary, one spacing apart. -/
def restackBelow (boundary spacing : κ) : List (Band κ) → List (Band κ)
  | [] => []
  | band :: rest =>
    let placed := band.placeAt (boundary + spacing)
    placed :: restackBelow placed.actualBottom spacing rest

/-- Lay bands out from top to bottom, one spacing apart; the first keeps its top. -/
def restackBands (spacing : κ) : List (Band κ) → List (Band κ)
  | [] => []
  | band :: rest =>
    let placed := band.placeAt band.top
    placed :: restackBelow placed.actualBottom spacing rest

/-! ## The drag gesture -/

/-- A drag of a boundary that is under way. -/
structure BoundaryDrag (κ : Type) where
  bandIndex : Nat
  /-- Where the pointer was when the drag began. -/
  startY : κ
  /-- The bands as they were when the drag began. -/
  snapshot : List (Band κ)
  bandIndex_lt : bandIndex < snapshot.length

namespace BoundaryDrag

/-- Begin to drag the boundary of a band, if there is one. -/
def begin? (bands : List (Band κ)) (bandIndex : Nat) (startY : κ) : Option (BoundaryDrag κ) :=
  if h : bandIndex < bands.length then some ⟨bandIndex, startY, bands, h⟩ else none

/-- The bands for a position of the pointer. -/
def step (d : BoundaryDrag κ) (pointerY spacing : κ) : List (Band κ) :=
  let boundary := (d.snapshot.get ⟨d.bandIndex, d.bandIndex_lt⟩).actualBottom
  resizeBand d.snapshot d.bandIndex (boundary + (pointerY - d.startY)) spacing

end BoundaryDrag

/-- Whether a boundary is being dragged. -/
inductive DragState (κ : Type) where
  | idle
  | dragging (drag : BoundaryDrag κ)

namespace DragState

/-- Is a boundary being dragged? -/
def isDragging : DragState κ → Bool
  | idle => false
  | dragging _ => true

/-- The pointer goes down on the boundary of a band; without such a band no drag begins. -/
def press (bands : List (Band κ)) (bandIndex : Nat) (y : κ) : DragState κ :=
  match BoundaryDrag.begin? bands bandIndex y with
  | some drag => dragging drag
  | none => idle

/-- The bands to show for a position of the pointer. -/
def pointerMove (s : DragState κ) (y spacing : κ) : Option (List (Band κ)) :=
  match s with
  | idle => none
  | dragging drag => some (drag.step y spacing)

/-- The pointer goes up: the bands of its last position, and no drag any more. -/
def release (s : DragState κ) (y spacing : κ) : Option (List (Band κ)) × DragState κ :=
  (s.pointerMove y spacing, idle)

/-- The drag is given up: the bands as they were before it, and no drag any more. -/
def cancel (s : DragState κ) : Option (List (Band κ)) × DragState κ :=
  match s with
  | idle => (none, idle)
  | dragging drag => (some drag.snapshot, idle)

end DragState

end BandedReport
