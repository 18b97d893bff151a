import BandedReport.Canvas.Rect
import BandedReport.Proofs.Canvas.Stacks

/-!
# Bands elsewhere on the surface

Laying bands out and moving a boundary place bands anew. Where all controls are at the floors of the
geometry, a band that is placed anew is the same band elsewhere: its top and its controls, frames
and both endpoints of lines alike, went down by one distance. Laying out keeps all heights, moving a
boundary keeps all but that of its band.

* `Control.AboveFloors` are the floors in exact arithmetic;
* `Band.IsMoved` says that a band is the same one elsewhere;
* `MovedBut` says so of all bands, of which all but some keep their heights.
-/

namespace BandedReport

open Coordinate (ofNat)

/-! ## §1 Floors -/

/-- The floors of a box and of a line. -/
def Body.AboveFloors : Body ℚ → Prop
  | .box f b _ =>
    (ofNat minControlSize : ℚ) ≤ f.width ∧ (ofNat minControlSize : ℚ) ≤ f.height ∧ 0 ≤ b.width
  | .line l => 0 ≤ l.strokeWidth

/-- The floors of a control. -/
def Control.AboveFloors (c : Control ℚ) : Prop := minZIndex ≤ c.zIndex ∧ c.body.AboveFloors

instance Body.decidableAboveFloors : (b : Body ℚ) → Decidable b.AboveFloors
  | .box .. => inferInstanceAs (Decidable (_ ∧ _ ∧ _))
  | .line _ => inferInstanceAs (Decidable (_ ≤ _))

instance Control.decidableAboveFloors (c : Control ℚ) : Decidable c.AboveFloors :=
  inferInstanceAs (Decidable (_ ∧ _))

theorem flooredSize_eq_max (x : ℚ) : flooredSize x = max x (ofNat minControlSize) := by
  rw [flooredSize, Exact.finiteOr_eq, Exact.larger_eq_max]

theorem flooredWidth_eq_max (x : ℚ) : flooredWidth x = max x 0 := by
  rw [flooredWidth, Exact.finiteOr_eq, Exact.larger_eq_max, Exact.ofNat_zero]

theorem Body.AboveFloors.normalize_eq {b : Body ℚ} (h : b.AboveFloors) : b.normalize = b := by
  cases b with
  | box f border content =>
    obtain ⟨hwidth, hheight, hborder⟩ := h
    simp only [normalize, Exact.finiteOr_eq, flooredSize_eq_max, flooredWidth_eq_max,
      max_eq_left hwidth, max_eq_left hheight, max_eq_left hborder]
  | line l =>
    have hstroke : 0 ≤ l.strokeWidth := h
    simp only [normalize, flooredWidth_eq_max, max_eq_left hstroke]

theorem Control.AboveFloors.normalize_eq {c : Control ℚ} (h : c.AboveFloors) :
    c.normalize = c := by
  unfold Control.normalize
  rw [Int.max_eq_left h.1, h.2.normalize_eq]

/-- What has been normalized is at the floors. -/
theorem Control.aboveFloors_normalize (c : Control ℚ) : c.normalize.AboveFloors := by
  refine ⟨Int.le_max_right _ _, ?_⟩
  unfold Control.normalize
  cases c.body with
  | box f b content =>
    simp [Body.normalize, Body.AboveFloors, flooredSize_eq_max, flooredWidth_eq_max]
  | line l => simp [Body.normalize, Body.AboveFloors, flooredWidth_eq_max]

/-- Neither the width nor the height is negative. -/
structure Rect.IsNormal (r : Rect ℚ) : Prop where
  zero_le_width : 0 ≤ r.width
  zero_le_height : 0 ≤ r.height

theorem Rect.isNormal_ofCorners (x1 y1 x2 y2 : ℚ) : (ofCorners x1 y1 x2 y2).IsNormal :=
  ⟨abs_nonneg _, abs_nonneg _⟩

/-- What is seen of a control at the floors has no negative size. -/
theorem Control.AboveFloors.isNormal_displayBox {c : Control ℚ} (h : c.AboveFloors) :
    c.displayBox.IsNormal := by
  obtain ⟨id, zIndex, printVisible, body⟩ := c
  cases body with
  | box f border content =>
    obtain ⟨-, hwidth, hheight, hborder⟩ := h
    have hmin : (0 : ℚ) ≤ ofNat minControlSize := Nat.cast_nonneg _
    have hchrome : (0 : ℚ) ≤ ofNat 2 * (border.width + ofNat boxPadding) :=
      mul_nonneg (Nat.cast_nonneg 2) (add_nonneg hborder (Nat.cast_nonneg _))
    exact ⟨add_nonneg (hmin.trans hwidth) hchrome, add_nonneg (hmin.trans hheight) hchrome⟩
  | line l => exact Rect.isNormal_ofCorners ..

theorem Normalizes.aboveFloors {before after : List (Control ℚ)} (h : Normalizes before after)
    (hfloors : ∀ c ∈ before, c.AboveFloors) : ∀ c ∈ after, c.AboveFloors := by
  intro c hc
  rcases h c hc with hc | ⟨d, rfl⟩
  · exact hfloors c hc
  · exact d.aboveFloors_normalize

/-! ## §2 Controls and bands elsewhere -/

/-- The control elsewhere, a line with both endpoints. -/
def Control.slid (dx dy : ℚ) (c : Control ℚ) : Control ℚ := { c with body := c.body.shift dx dy }

/-- The control further down, a line with both endpoints. -/
def Control.lower (dy : ℚ) (c : Control ℚ) : Control ℚ :=
  { c with body := c.body.shift (ofNat 0) dy }

namespace Control

@[simp] theorem slid_zero (c : Control ℚ) : c.slid 0 0 = c := by
  obtain ⟨id, zIndex, printVisible, body⟩ := c
  cases body <;> simp [slid, Body.shift]

theorem slid_slid (c : Control ℚ) (dx dy dx' dy' : ℚ) :
    (c.slid dx dy).slid dx' dy' = c.slid (dx + dx') (dy + dy') := by
  obtain ⟨id, zIndex, printVisible, body⟩ := c
  cases body <;> simp [slid, Body.shift, add_assoc]

/-- What is seen of a control elsewhere is what is seen of it here, elsewhere. -/
theorem displayBox_slid (c : Control ℚ) (dx dy : ℚ) :
    (c.slid dx dy).displayBox =
      { c.displayBox with x := c.displayBox.x + dx, y := c.displayBox.y + dy } := by
  obtain ⟨id, zIndex, printVisible, body⟩ := c
  cases body with
  | box f border content => rfl
  | line l =>
    simp only [slid, Body.shift, displayBox, Rect.ofCorners, Exact.smaller_eq_min,
      add_sub_add_right_eq_sub, min_add_add_right]

theorem lower_eq_slid (c : Control ℚ) (dy : ℚ) : c.lower dy = c.slid 0 dy := by
  rw [lower, slid, Exact.ofNat_zero]

theorem lower_zero (c : Control ℚ) : c.lower 0 = c := by
  rw [lower_eq_slid, slid_zero]

theorem lower_lower (c : Control ℚ) (dy dy' : ℚ) : (c.lower dy).lower dy' = c.lower (dy + dy') := by
  simp only [lower_eq_slid, slid_slid, add_zero]

/-- Elsewhere the floors are the same. -/
theorem AboveFloors.slid {c : Control ℚ} (h : c.AboveFloors) (dx dy : ℚ) :
    (c.slid dx dy).AboveFloors := by
  refine ⟨h.1, ?_⟩
  have hbody := h.2
  unfold Control.slid
  cases hc : c.body <;> rw [hc] at hbody <;> exact hbody

theorem AboveFloors.lower {c : Control ℚ} (h : c.AboveFloors) (dy : ℚ) :
    (c.lower dy).AboveFloors :=
  h.slid _ dy

/-- A shift of a control at the floors takes it elsewhere, and does nothing else. -/
theorem AboveFloors.translate_eq {c : Control ℚ} (h : c.AboveFloors) (dx dy : ℚ) :
    c.translate dx dy = c.slid dx dy :=
  (h.slid dx dy).normalize_eq

end Control

/-- The second band is the first one elsewhere: its top and its controls went down by a distance,
and nothing else changed but the notes of its lower boundary. -/
structure Band.IsMoved (dy : ℚ) (b b' : Band ℚ) : Prop where
  top : b'.top = b.top + dy
  objects : b'.objects = b.objects.map (Control.lower dy)
  rest : b' = { b with
    top := b'.top, bottom := b'.bottom, actualBottom := b'.actualBottom, objects := b'.objects }

namespace Band

variable {b : Band ℚ}

theorem map_lower_zero (controls : List (Control ℚ)) :
    controls.map (Control.lower 0) = controls :=
  (List.map_congr_left fun c _ => c.lower_zero).trans (List.map_id' controls)

/-- Wherever its lower boundary is, a band is where it is. -/
theorem isMoved_withBottom (b : Band ℚ) (bottom actualBottom : ℚ) :
    b.IsMoved 0 { b with bottom, actualBottom } :=
  ⟨(add_zero b.top).symm, (map_lower_zero b.objects).symm, rfl⟩

theorem isMoved_shift (h : ∀ c ∈ b.objects, c.AboveFloors) (dy : ℚ) :
    b.IsMoved dy (b.shift dy) :=
  ⟨rfl, List.map_congr_left fun c hc => (h c hc).translate_eq _ dy, rfl⟩

theorem isMoved_follow (h : ∀ c ∈ b.objects, c.AboveFloors) (dy : ℚ) :
    b.IsMoved dy (b.follow dy) := by
  unfold follow
  split
  · rename_i hzero
    rw [eq_of_beq hzero]
    exact b.isMoved_withBottom _ _
  · exact isMoved_shift h dy

/-- Placing a band moves its controls along, and normalizes them. -/
theorem objects_placeAt (b : Band ℚ) (top : ℚ) :
    (b.placeAt top).objects = b.objects.map fun c => (c.lower (top - b.top)).normalize := by
  unfold placeAt
  dsimp only
  split
  · rename_i hzero
    have hdy : top - b.top = 0 := by simpa using hzero
    simp only [hdy, Control.lower_zero]
  · -- A shift normalizes too, and a second time nothing is left to normalize.
    rw [shift, List.map_map]
    exact List.map_congr_left fun c _ => (Control.aboveFloors_normalize _).normalize_eq

theorem rest_placeAt (b : Band ℚ) (top : ℚ) :
    b.placeAt top = { b with
      top := (b.placeAt top).top, bottom := (b.placeAt top).bottom
      actualBottom := (b.placeAt top).actualBottom, objects := (b.placeAt top).objects } := by
  unfold placeAt
  dsimp only
  split <;> rfl

/-- Placing a band moves it, and normalizes controls that are normal. -/
theorem isMoved_placeAt (h : ∀ c ∈ b.objects, c.AboveFloors) (top : ℚ) :
    b.IsMoved (top - b.top) (b.placeAt top) := by
  refine ⟨?_, ?_, b.rest_placeAt top⟩
  · rw [top_placeAt]
    ring
  · rw [objects_placeAt]
    exact List.map_congr_left fun c hc => ((h c hc).lower _).normalize_eq

@[simp] theorem height_placeAt (b : Band ℚ) (top : ℚ) : (b.placeAt top).height = b.height := by
  rw [height_eq, actualBottom_placeAt, top_placeAt, add_sub_cancel_left, height_eq,
    max_eq_left (le_max_right _ _)]

end Band

/-! ## §3 Laying out and moving a boundary -/

/-- The second band is the first one elsewhere, with the same height. -/
structure Band.IsCarried (b b' : Band ℚ) : Prop where
  isMoved : ∃ dy, b.IsMoved dy b'
  height : b'.height = b.height

/-- The second band is the first one elsewhere, with the same height unless the index of the first
one is excepted. -/
structure CarriedBut (excepted : Nat → Prop) (place : Band ℚ × Nat) (b' : Band ℚ) : Prop where
  isMoved : ∃ dy, place.1.IsMoved dy b'
  height : ¬ excepted place.2 → b'.height = place.1.height

/-- The bands are the same ones elsewhere, and only those of excepted indices have other heights. -/
def MovedBut (excepted : Nat → Prop) (bands bands' : List (Band ℚ)) : Prop :=
  List.Forall₂ (CarriedBut excepted) bands.zipIdx bands'

theorem Band.isCarried_self (b : Band ℚ) : b.IsCarried b := ⟨⟨0, b.isMoved_withBottom _ _⟩, rfl⟩

theorem Band.isCarried_placeAt {b : Band ℚ} (h : ∀ c ∈ b.objects, c.AboveFloors) (top : ℚ) :
    b.IsCarried (b.placeAt top) :=
  ⟨⟨_, isMoved_placeAt h top⟩, b.height_placeAt top⟩

theorem Band.isCarried_follow {b : Band ℚ} (h : ∀ c ∈ b.objects, c.AboveFloors) (dy : ℚ) :
    b.IsCarried (b.follow dy) :=
  ⟨⟨dy, isMoved_follow h dy⟩, height_follow⟩

/-- Bands that are carried one by one are so whatever their indices are. -/
theorem carriedBut_zipIdx {excepted : Nat → Prop} {bands bands' : List (Band ℚ)}
    (h : List.Forall₂ Band.IsCarried bands bands') (start : Nat) :
    List.Forall₂ (CarriedBut excepted) (bands.zipIdx start) bands' := by
  rw [← List.zipIdx_map_fst start bands, List.forall₂_map_left_iff] at h
  exact h.imp fun _ _ hband => ⟨hband.isMoved, fun _ => hband.height⟩

/-- Laying bands out carries all of them. -/
theorem movedBut_restackBands {bands : List (Band ℚ)}
    (h : ∀ c ∈ allObjects bands, c.AboveFloors) (spacing : ℚ) :
    MovedBut (fun _ => False) bands (restackBands spacing bands) := by
  refine carriedBut_zipIdx (forall₂_restackBands (fun b hb top => ?_) spacing) 0
  exact Band.isCarried_placeAt (fun c hc => h c (mem_allObjects.mpr ⟨b, hb, hc⟩)) top

/-- Moving a boundary carries the bands, but for the height of the band of the boundary. -/
theorem movedBut_resizeBand {bands : List (Band ℚ)}
    (h : ∀ c ∈ allObjects bands, c.AboveFloors) (index : Nat) (newBottom spacing : ℚ) :
    MovedBut (· = index) bands (resizeBand bands index newBottom spacing) := by
  have hsame : ∀ bands : List (Band ℚ), List.Forall₂ Band.IsCarried bands bands :=
    fun bands => List.forall₂_same.mpr fun b _ => b.isCarried_self
  cases hband : bands[index]? with
  | none =>
    simp only [resizeBand, hband]
    exact carriedBut_zipIdx (hsame bands) 0
  | some band =>
    -- Where the boundary is, the bands below follow it by one distance.
    obtain ⟨bottom, -, -, heq⟩ := resizeBand_eq hband newBottom spacing
    obtain ⟨hindex, -⟩ := List.getElem?_eq_some_iff.mp hband
    have hbelow : List.Forall₂ Band.IsCarried (bands.drop (index + 1))
        ((bands.drop (index + 1)).map (Band.follow (bottom - band.actualBottom))) := by
      rw [List.forall₂_map_right_iff, List.forall₂_same]
      exact fun b hb => Band.isCarried_follow
        (fun c hc => h c (mem_allObjects.mpr ⟨b, List.mem_of_mem_drop hb, hc⟩)) _
    -- The bands above stay, the band of the boundary has another height, those below follow it.
    have hlength : (bands.take index).length = index :=
      List.length_take_of_le (Nat.le_of_lt hindex)
    have hplaces : bands.zipIdx = (bands.take index).zipIdx ++
        (band, index) :: (bands.drop (index + 1)).zipIdx (index + 1) := by
      conv_lhs => rw [eq_take_cons_drop hband]
      rw [List.zipIdx_append, List.zipIdx_cons, hlength, Nat.zero_add]
    rw [MovedBut, heq, hplaces]
    exact List.rel_append (carriedBut_zipIdx (hsame _) 0)
      (.cons ⟨⟨0, band.isMoved_withBottom _ _⟩, fun hother => absurd rfl hother⟩
        (carriedBut_zipIdx hbelow _))

end BandedReport
