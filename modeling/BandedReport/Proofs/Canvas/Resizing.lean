import BandedReport.Canvas.Alignment
import BandedReport.Proofs.Canvas.Relocation

/-!
# Resizing by handles

A handle of a box moves one edge or two that meet, and the edges opposite to them stay where they
are, however far the handle is dragged. A moved edge follows the pointer until the box would become
smaller than the least size; there it stops. So a box does not creep when a handle is dragged past
its opposite edge, in one step or in many. The two handles of a line move its endpoints.

* `Edge` are the edges of a box, `ResizeHandle.moves` says which of them a handle moves;
* `Frame.Dragged` and `Line.Dragged` say what a handle may do to a box and to a line;
* `resizeExtent_fst_of_fixed` and the lemmas after it are the same along one axis;
* `resize_keeps_opposite` is the result.
-/

namespace BandedReport

open Coordinate (ofNat)

/-! ## §1 Edges -/

/-- The edges of a box. -/
inductive Edge where
  | left | right | top | bottom
deriving DecidableEq

namespace Edge

/-- The edge on the other side of the box. -/
def opposite : Edge → Edge
  | left => right
  | right => left
  | top => bottom
  | bottom => top

variable {κ : Type} [Coordinate κ]

/-- Where the edge of a box is. -/
def coordinate (e : Edge) (f : Frame κ) : κ :=
  match e with
  | left => f.x
  | right => f.x + f.width
  | top => f.y
  | bottom => f.y + f.height

/-- How far an edge is taken by an offset. -/
def offset (e : Edge) (dx dy : κ) : κ :=
  match e with
  | left | right => dx
  | top | bottom => dy

/-- The size of a box, measured from the opposite edge where it is, if the edge were at a
coordinate. -/
def sizeAt (e : Edge) (f : Frame κ) (x : κ) : κ :=
  match e with
  | left | top => e.opposite.coordinate f - x
  | right | bottom => x - e.opposite.coordinate f

end Edge

namespace ResizeHandle

/-- Does the handle move the edge? -/
def moves (h : ResizeHandle) : Edge → Bool
  | .left => h.movesLeft
  | .right => h.movesRight
  | .top => h.movesTop
  | .bottom => h.movesBottom

/-- Is the handle an endpoint of a line? -/
def isEndpoint (h : ResizeHandle) : Bool := h == lineStart || h == lineEnd

/-- No handle moves two edges that are opposite to each other. -/
theorem moves_opposite (h : ResizeHandle) {e : Edge} (he : h.moves e = true) :
    h.moves e.opposite = false := by
  revert he
  cases h <;> cases e <;> decide

end ResizeHandle

/-- What dragging a handle by an offset may do to a box. -/
structure Frame.Dragged (h : ResizeHandle) (dx dy : ℚ) (f f' : Frame ℚ) : Prop where
  /-- Edges that the handle does not move stay. -/
  fixed : ∀ e : Edge, h.moves e = false → e.coordinate f' = e.coordinate f
  /-- A moved edge goes the whole way, if this leaves the box at least the least size. -/
  moved : ∀ e : Edge, h.moves e = true →
    ofNat minControlSize ≤ e.sizeAt f (e.coordinate f + e.offset dx dy) →
      e.coordinate f' = e.coordinate f + e.offset dx dy
  /-- Otherwise it stops where the box has the least size. -/
  stopped : ∀ e : Edge, h.moves e = true →
    e.sizeAt f (e.coordinate f + e.offset dx dy) < ofNat minControlSize →
      e.sizeAt f (e.coordinate f') = ofNat minControlSize

/-- What dragging a handle by an offset may do to a line: it takes the endpoint of the handle along
and leaves the other one where it is. -/
structure Line.Dragged (h : ResizeHandle) (dx dy : ℚ) (l l' : Line ℚ) : Prop where
  start : (l'.x1, l'.y1) = if h = .lineStart then (l.x1 + dx, l.y1 + dy) else (l.x1, l.y1)
  stop : (l'.x2, l'.y2) = if h = .lineEnd then (l.x2 + dx, l.y2 + dy) else (l.x2, l.y2)
  rest : l' = { l with x1 := l'.x1, y1 := l'.y1, x2 := l'.x2, y2 := l'.y2 }

/-- What dragging a handle by an offset may do to a box or a line. Border and content stay. -/
inductive Body.Dragged (h : ResizeHandle) (dx dy : ℚ) : Body ℚ → Body ℚ → Prop
  | box {f f' : Frame ℚ} (hf : f.Dragged h dx dy f') (border : Border ℚ) (content : BoxContent) :
    Dragged h dx dy (.box f border content) (.box f' border content)
  | line {l l' : Line ℚ} (hl : l.Dragged h dx dy l') : Dragged h dx dy (.line l) (.line l')

/-! ## §2 One axis -/

section Extent

variable {start size delta : ℚ} {movesStart movesEnd : Bool}

theorem resizeExtent_fst_of_fixed (h : movesStart = false) :
    (resizeExtent start size movesStart movesEnd delta).1 = start := by
  subst h
  cases movesEnd <;> rfl

/-- The end is where it was, since the size is taken off from there. -/
theorem resizeExtent_end_of_fixed (h : movesEnd = false) :
    (resizeExtent start size movesStart movesEnd delta).1 +
      (resizeExtent start size movesStart movesEnd delta).2 = start + size := by
  subst h
  cases movesStart with
  | false => rfl
  | true => exact sub_add_cancel _ _

theorem resizeExtent_fst_of_moved (hstart : movesStart = true) (hend : movesEnd = false) :
    (resizeExtent start size movesStart movesEnd delta).1 =
      start + size - max (size - delta) (ofNat minControlSize) := by
  subst hstart hend
  rw [← Exact.larger_eq_max]
  rfl

theorem resizeExtent_end_of_moved (hend : movesEnd = true) (hstart : movesStart = false) :
    (resizeExtent start size movesStart movesEnd delta).1 +
      (resizeExtent start size movesStart movesEnd delta).2 =
        start + max (size + delta) (ofNat minControlSize) := by
  subst hstart hend
  rw [← Exact.larger_eq_max]
  rfl

/-- An extent that has at least the least size keeps that much. -/
theorem le_resizeExtent_snd (h : (ofNat minControlSize : ℚ) ≤ size) :
    (ofNat minControlSize : ℚ) ≤ (resizeExtent start size movesStart movesEnd delta).2 := by
  cases movesStart <;> cases movesEnd <;> simp [resizeExtent, h]

end Extent

/-! ## §3 Boxes -/

namespace Edge

variable {e : Edge} {f : Frame ℚ}

/-- The size tells where the edge is. -/
theorem eq_of_sizeAt_eq {x y : ℚ} (h : e.sizeAt f x = e.sizeAt f y) : x = y := by
  cases e with
  | left | top => exact sub_right_injective h
  | right | bottom => exact sub_left_injective h

/-- Across a moved edge the box gets the size that the offset asks for, or the least size if that is
larger. -/
theorem sizeAt_drag {h : ResizeHandle} (he : h.moves e = true) (dx dy : ℚ) :
    e.sizeAt f (e.coordinate (f.drag h dx dy)) =
      max (e.sizeAt f (e.coordinate f + e.offset dx dy)) (Coordinate.ofNat minControlSize) := by
  -- A handle that moves an edge holds the opposite one, from which the size is measured.
  have hopposite := h.moves_opposite he
  cases e with
  | left =>
    show f.x + f.width - (f.drag h dx dy).x = max (f.x + f.width - (f.x + dx)) _
    rw [show (f.drag h dx dy).x = _ from resizeExtent_fst_of_moved he hopposite, sub_sub_cancel,
      add_sub_add_left_eq_sub]
  | right =>
    show (f.drag h dx dy).x + (f.drag h dx dy).width - f.x = max (f.x + f.width + dx - f.x) _
    rw [show (f.drag h dx dy).x + (f.drag h dx dy).width = _ from
      resizeExtent_end_of_moved he hopposite, add_sub_cancel_left, add_assoc, add_sub_cancel_left]
  | top =>
    show f.y + f.height - (f.drag h dx dy).y = max (f.y + f.height - (f.y + dy)) _
    rw [show (f.drag h dx dy).y = _ from resizeExtent_fst_of_moved he hopposite, sub_sub_cancel,
      add_sub_add_left_eq_sub]
  | bottom =>
    show (f.drag h dx dy).y + (f.drag h dx dy).height - f.y = max (f.y + f.height + dy - f.y) _
    rw [show (f.drag h dx dy).y + (f.drag h dx dy).height = _ from
      resizeExtent_end_of_moved he hopposite, add_sub_cancel_left, add_assoc, add_sub_cancel_left]

end Edge

/-- A handle does to a box what it may do. -/
theorem Frame.dragged_drag (f : Frame ℚ) (h : ResizeHandle) (dx dy : ℚ) :
    f.Dragged h dx dy (f.drag h dx dy) where
  -- An edge that is not moved is the near end or the far end of an extent.
  fixed := by
    intro e he
    cases e with
    | left | top => exact resizeExtent_fst_of_fixed he
    | right | bottom => exact resizeExtent_end_of_fixed he
  moved := by
    intro e he hlarge
    apply Edge.eq_of_sizeAt_eq (f := f)
    rw [Edge.sizeAt_drag he, max_eq_left hlarge]
  stopped := by
    intro e he hsmall
    rw [Edge.sizeAt_drag he, max_eq_right hsmall.le]

theorem Frame.drag_eq_self {h : ResizeHandle} (hh : h.isEndpoint = true) (f : Frame ℚ)
    (dx dy : ℚ) : f.drag h dx dy = f := by
  obtain rfl | rfl : h = .lineStart ∨ h = .lineEnd := by simpa [ResizeHandle.isEndpoint] using hh
  · rfl
  · rfl

/-! ## §4 Lines -/

/-- A handle does to a line what it may do. -/
theorem Line.dragged_drag (l : Line ℚ) (h : ResizeHandle) (dx dy : ℚ) :
    l.Dragged h dx dy (l.drag h dx dy) := by
  cases h <;> exact ⟨rfl, rfl, rfl⟩

theorem Line.drag_eq_self {h : ResizeHandle} (hh : h.isEndpoint = false) (l : Line ℚ)
    (dx dy : ℚ) : l.drag h dx dy = l := by
  unfold Line.drag
  split
  · cases hh
  · cases hh
  · rfl

/-! ## §5 Controls -/

theorem Body.dragged_drag (b : Body ℚ) (h : ResizeHandle) (dx dy : ℚ) :
    b.Dragged h dx dy (b.drag h dx dy) := by
  cases b with
  | box f border content => exact .box (f.dragged_drag h dx dy) border content
  | line l => exact .line (l.dragged_drag h dx dy)

/-- A dragged handle leaves what is at the floors there. -/
theorem Body.AboveFloors.drag {b : Body ℚ} (hb : b.AboveFloors) (h : ResizeHandle) (dx dy : ℚ) :
    (b.drag h dx dy).AboveFloors := by
  cases b with
  | box f border content =>
    obtain ⟨hwidth, hheight, hborder⟩ := hb
    exact ⟨le_resizeExtent_snd hwidth, le_resizeExtent_snd hheight, hborder⟩
  | line l => cases h <;> exact hb

namespace Control

/-- After a handle of a control at the floors was dragged, nothing is left to normalize. -/
theorem AboveFloors.resize_eq {c : Control ℚ} (hc : c.AboveFloors) (h : ResizeHandle)
    (dx dy : ℚ) : c.resize h dx dy = { c with body := c.body.drag h dx dy } := by
  have hdragged : ({ c with body := c.body.drag h dx dy } : Control ℚ).AboveFloors :=
    ⟨hc.1, hc.2.drag h dx dy⟩
  exact hdragged.normalize_eq

/-- The control after a handle was dragged in several steps. -/
def resizeAll {κ : Type} [Coordinate κ] (c : Control κ) (h : ResizeHandle)
    (steps : List (κ × κ)) : Control κ :=
  steps.foldl (fun c step => c.resize h step.1 step.2) c

/-- However many steps a handle of a box is dragged in, the edges that it does not move stay. -/
theorem AboveFloors.resizeAll_eq {c : Control ℚ} (hc : c.AboveFloors) (h : ResizeHandle)
    (steps : List (ℚ × ℚ)) {f : Frame ℚ} {border : Border ℚ} {content : BoxContent}
    (hbox : c.body = .box f border content) :
    ∃ f', c.resizeAll h steps = { c with body := .box f' border content } ∧
      ∀ e : Edge, h.moves e = false → e.coordinate f' = e.coordinate f := by
  induction steps generalizing c f with
  | nil => exact ⟨f, by rw [← hbox]; rfl, fun e _ => rfl⟩
  | cons step rest ih =>
    -- The first drag changes the frame alone, so there is a frame to drag again.
    have hstep : c.resize h step.1 step.2 =
        { c with body := .box (f.drag h step.1 step.2) border content } := by
      rw [hc.resize_eq, hbox]
      rfl
    have hnext : (c.resize h step.1 step.2).AboveFloors := aboveFloors_normalize _
    obtain ⟨f', hrest, hfixed⟩ := ih hnext (by rw [hstep])
    refine ⟨f', ?_, fun e he => ?_⟩
    · show (c.resize h step.1 step.2).resizeAll h rest = _
      rw [hrest, hstep]
    · -- What the later drags hold fixed the first one held as well.
      rw [hfixed e he, (f.dragged_drag h step.1 step.2).fixed e he]

end Control

/-- **Resizing never moves an opposite edge.** Let a control be at the floors of the geometry, and a
handle of it be dragged by any offset. Of a box, an edge that the handle does not move stays, and no
handle moves two opposite edges; a moved edge goes by the offset, unless the box would become
smaller than the least size, and then it stops where the box has exactly the least size, measured
from the opposite edge. Of a line, the handle at an endpoint takes this endpoint by the offset, and
the other one stays. The handles of a line do nothing to a box, those of a box nothing to a line.
All else about the control is as before. In however many steps the handle of a box is dragged, the
edges that it does not move stay. -/
theorem resize_keeps_opposite {c : Control ℚ} (hc : c.AboveFloors) (h : ResizeHandle) (dx dy : ℚ) :
    (∃ body, c.resize h dx dy = { c with body } ∧ c.body.Dragged h dx dy body) ∧
    (∀ e : Edge, h.moves e = true → h.moves e.opposite = false) ∧
    (h.isEndpoint ≠ c.isLine → c.resize h dx dy = c) ∧
    ∀ (steps : List (ℚ × ℚ)) (f : Frame ℚ) (border : Border ℚ) (content : BoxContent),
      c.body = .box f border content →
        ∃ f', c.resizeAll h steps = { c with body := .box f' border content } ∧
          ∀ e : Edge, h.moves e = false → e.coordinate f' = e.coordinate f := by
  refine ⟨⟨_, hc.resize_eq h dx dy, c.body.dragged_drag h dx dy⟩, fun e => h.moves_opposite,
    fun hother => ?_, fun steps f border content hbox => hc.resizeAll_eq h steps hbox⟩
  rw [hc.resize_eq]
  -- A handle of the other kind finds no edge or no endpoint to move.
  obtain ⟨id, zIndex, printVisible, body⟩ := c
  cases body with
  | box f border content =>
    have hendpoint : h.isEndpoint = true := eq_true_of_ne_false hother
    simp only [Body.drag, f.drag_eq_self hendpoint]
  | line l =>
    have hhandle : h.isEndpoint = false := eq_false_of_ne_true hother
    simp only [Body.drag, l.drag_eq_self hhandle]

private def stampFrame : Frame ℚ := ⟨100, 100, 50, 40⟩

private def stamp : Control ℚ :=
  (Control.ofContent "stamp" stampFrame (.image "stamp.png")).withBorder (.solid 2)

/-- The left edge is dragged past the least size while the top edge follows. -/
theorem resize_keeps_opposite_pastFloor :
    stamp.AboveFloors ∧
    (∃ f : Frame ℚ, stamp.resize .topLeft 45 (-10) =
        { stamp with body := .box f (.solid 2) (.image "stamp.png") } ∧
      f.x = 130 ∧ f.x + f.width = 150 ∧ f.y = 90 ∧ f.y + f.height = 140) ∧
    ∃ f : Frame ℚ, stamp.resizeAll .topLeft [(45, -10), (100, 0), (-300, 70)] =
        { stamp with body := .box f (.solid 2) (.image "stamp.png") } ∧
      f.x + f.width = 150 ∧ f.y + f.height = 140 := by
  have hfloors : stamp.AboveFloors := by decide +kernel
  have hright : Edge.coordinate .right stampFrame = 150 := by norm_num [Edge.coordinate, stampFrame]
  have hbottom : Edge.coordinate .bottom stampFrame = 140 := by
    norm_num [Edge.coordinate, stampFrame]
  -- The top is free to move, but the left edge would pass the floor.
  obtain ⟨⟨body, hresize, hdragged⟩, -, -, hsteps⟩ :=
    resize_keeps_opposite hfloors .topLeft 45 (-10)
  refine ⟨hfloors, ?_, ?_⟩
  · obtain @⟨_, f, hf⟩ := hdragged
    refine ⟨f, hresize, ?_, (hf.fixed .right rfl).trans hright, ?_,
      (hf.fixed .bottom rfl).trans hbottom⟩
    · -- The left edge stops where the box is 20 wide.
      have hstopped := hf.stopped .left rfl (by decide +kernel)
      have hsize : (150 : ℚ) - f.x = 20 := by
        rw [← hright]
        exact hstopped
      linarith
    · -- The top edge goes where it is dragged.
      have hmoved := hf.moved .top rfl (by decide +kernel)
      exact hmoved.trans (by norm_num [Edge.coordinate, Edge.offset, stampFrame])
  · -- However often it is dragged, the right and the bottom edge stay.
    obtain ⟨f, hall, hfixed⟩ := hsteps [(45, -10), (100, 0), (-300, 70)] _ _ _ rfl
    exact ⟨f, hall, (hfixed .right rfl).trans hright, (hfixed .bottom rfl).trans hbottom⟩

end BandedReport
