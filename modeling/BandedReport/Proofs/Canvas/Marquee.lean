import BandedReport.Canvas.Marquee
import BandedReport.Proofs.Canvas.Relocation
import BandedReport.Proofs.Sorting

/-!
# Marquee selection

A rectangle that is drawn on the surface selects the controls that are seen to touch it. It may be
drawn from any of its corners; what it selects depends on the area between the corners alone, and a
larger area selects no less. Whether a control touches the area is decided by four comparisons of
edges, which is the same as that they have a point in common, since neither has a negative size.

* `Rect.Meets` says that two rectangles have a point in common, `Rect.intersects_iff_meets` that
  this is what the comparisons decide;
* `Rect.drawnBetween` are the rectangles between two corners;
* `addToSelection_eq` says what a selection becomes when hits are added to it;
* `marquee_exact` is the result.
-/

namespace BandedReport

/-! ## §1 Points in common -/

namespace Rect

/-- The rectangles have a point in common, perhaps one on their edges. -/
def Meets (r s : Rect ℚ) : Prop := ∃ x y, r.containsPoint x y = true ∧ s.containsPoint x y = true

theorem IsNormal.left_le_right {r : Rect ℚ} (h : r.IsNormal) : r.left ≤ r.right :=
  le_add_of_nonneg_right h.zero_le_width

theorem IsNormal.top_le_bottom {r : Rect ℚ} (h : r.IsNormal) : r.top ≤ r.bottom :=
  le_add_of_nonneg_right h.zero_le_height

variable {r s : Rect ℚ}

theorem containsPoint_iff {x y : ℚ} :
    r.containsPoint x y = true ↔ (r.left ≤ x ∧ x ≤ r.right) ∧ r.top ≤ y ∧ y ≤ r.bottom := by
  simp only [containsPoint, Bool.and_eq_true, decide_eq_true_eq, and_assoc]

/-- Two rectangles have a point in common just if along each axis one that begins later does so
before one that ends earlier has ended. -/
theorem meets_iff :
    r.Meets s ↔ max r.left s.left ≤ min r.right s.right ∧
      max r.top s.top ≤ min r.bottom s.bottom := by
  constructor
  · rintro ⟨x, y, hr, hs⟩
    -- A common point lies behind both beginnings and in front of both ends.
    obtain ⟨⟨hleft, hright⟩, htop, hbottom⟩ := containsPoint_iff.mp hr
    obtain ⟨⟨hleft', hright'⟩, htop', hbottom'⟩ := containsPoint_iff.mp hs
    exact ⟨(max_le hleft hleft').trans (le_min hright hright'),
      (max_le htop htop').trans (le_min hbottom hbottom')⟩
  · rintro ⟨hx, hy⟩
    -- The corner at which both have begun is a point of both.
    obtain ⟨hright, hright'⟩ := le_min_iff.mp hx
    obtain ⟨hbottom, hbottom'⟩ := le_min_iff.mp hy
    refine ⟨max r.left s.left, max r.top s.top, containsPoint_iff.mpr ?_, containsPoint_iff.mpr ?_⟩
    · exact ⟨⟨le_max_left _ _, hright⟩, le_max_left _ _, hbottom⟩
    · exact ⟨⟨le_max_right _ _, hright'⟩, le_max_right _ _, hbottom'⟩

instance decidableMeets (r s : Rect ℚ) : Decidable (r.Meets s) := decidable_of_iff _ meets_iff.symm

/-- Comparing edges decides whether there is a point in common, if no size is negative. -/
theorem intersects_iff_meets (hr : r.IsNormal) (hs : s.IsNormal) :
    r.intersects s = true ↔ r.Meets s := by
  rw [meets_iff]
  simp only [intersects, Bool.and_eq_true, decide_eq_true_eq, le_min_iff, max_le_iff]
  -- What the comparisons leave out are the edges of one and the same rectangle.
  constructor
  · rintro ⟨⟨⟨hleft, hright⟩, htop⟩, hbottom⟩
    exact ⟨⟨⟨hr.left_le_right, hright⟩, hleft, hs.left_le_right⟩,
      ⟨hr.top_le_bottom, hbottom⟩, htop, hs.top_le_bottom⟩
  · rintro ⟨⟨⟨-, hright⟩, hleft, -⟩, ⟨-, hbottom⟩, htop, -⟩
    exact ⟨⟨⟨hleft, hright⟩, htop⟩, hbottom⟩

/-- A larger rectangle meets no less. -/
theorem Meets.mono (h : r.Meets s) {t : Rect ℚ}
    (hst : ∀ x y, s.containsPoint x y = true → t.containsPoint x y = true) : r.Meets t := by
  obtain ⟨x, y, hr, hs⟩ := h
  exact ⟨x, y, hr, hst x y hs⟩

/-! ## §2 Rectangles between corners -/

section Corners

variable (x1 y1 x2 y2 : ℚ)

theorem right_ofCorners : (ofCorners x1 y1 x2 y2).right = max x1 x2 := by
  show smaller x1 x2 + |x2 - x1| = max x1 x2
  rw [Exact.smaller_eq_min, ← max_sub_min_eq_abs, add_sub_cancel]

theorem bottom_ofCorners : (ofCorners x1 y1 x2 y2).bottom = max y1 y2 := by
  show smaller y1 y2 + |y2 - y1| = max y1 y2
  rw [Exact.smaller_eq_min, ← max_sub_min_eq_abs, add_sub_cancel]

/-- The points of the rectangle are those between the corners. -/
theorem containsPoint_ofCorners_iff (x y : ℚ) :
    (ofCorners x1 y1 x2 y2).containsPoint x y = true ↔ x ∈ Set.uIcc x1 x2 ∧ y ∈ Set.uIcc y1 y2 := by
  have hleft : (ofCorners x1 y1 x2 y2).left = min x1 x2 := Exact.smaller_eq_min x1 x2
  have htop : (ofCorners x1 y1 x2 y2).top = min y1 y2 := Exact.smaller_eq_min y1 y2
  rw [containsPoint_iff, hleft, htop, right_ofCorners, bottom_ofCorners]
  rfl

theorem ofCorners_swap_x : ofCorners x2 y1 x1 y2 = ofCorners x1 y1 x2 y2 := by
  simp only [ofCorners, Exact.smaller_eq_min, Coordinate.abs, min_comm x2, abs_sub_comm x1]

theorem ofCorners_swap_y : ofCorners x1 y2 x2 y1 = ofCorners x1 y1 x2 y2 := by
  simp only [ofCorners, Exact.smaller_eq_min, Coordinate.abs, min_comm y2, abs_sub_comm y1]

end Corners

/-- The rectangles that are drawn between two corners: from the first to the second, the other way,
and between the other two corners of the same area. Drawn to the left or upwards, a rectangle has a
negative width or height. -/
def drawnBetween {κ : Type} [Coordinate κ] (x1 y1 x2 y2 : κ) : List (Rect κ) :=
  [⟨x1, y1, x2 - x1, y2 - y1⟩, ⟨x2, y2, x1 - x2, y1 - y2⟩,
    ⟨x2, y1, x1 - x2, y2 - y1⟩, ⟨x1, y2, x2 - x1, y1 - y2⟩]

/-- Whichever way it is drawn, the area is the same. -/
theorem normalized_of_mem_drawnBetween {x1 y1 x2 y2 : ℚ} :
    ∀ rect ∈ drawnBetween x1 y1 x2 y2, rect.normalized = ofCorners x1 y1 x2 y2 := by
  simp only [drawnBetween, List.forall_mem_cons, normalized, add_sub_cancel]
  refine ⟨trivial, ?_, ofCorners_swap_x .., ofCorners_swap_y .., List.forall_mem_nil _⟩
  rw [ofCorners_swap_x, ofCorners_swap_y]

end Rect

/-! ## §3 Hits -/

section Hits

variable {bands : List (Band ℚ)} (hfloors : ∀ c ∈ allObjects bands, c.AboveFloors)
include hfloors

/-- The hits are the controls of which a point is seen in the area. -/
theorem hitTest_eq (rect : Rect ℚ) :
    hitTest bands rect = bands.flatMap fun band =>
      (band.objects.filter fun c => c.displayBox.Meets rect.normalized).map
        fun c => ⟨band.id, c.id⟩ := by
  refine List.flatMap_congr fun band hband => congrArg _ (List.filter_congr fun c hc => ?_)
  have hnormal := (hfloors c (mem_allObjects.mpr ⟨band, hband, hc⟩)).isNormal_displayBox
  rw [Bool.eq_iff_iff, decide_eq_true_eq]
  exact Rect.intersects_iff_meets hnormal (Rect.isNormal_ofCorners ..)

/-- A larger area drops no hit, and keeps the order. -/
theorem hitTest_sublist {rect wider : Rect ℚ}
    (h : ∀ x y, rect.normalized.containsPoint x y = true →
      wider.normalized.containsPoint x y = true) :
    (hitTest bands rect).Sublist (hitTest bands wider) := by
  rw [hitTest_eq hfloors, hitTest_eq hfloors]
  refine List.Sublist.flatMap_right _ fun band _ => List.Sublist.map _ ?_
  refine List.monotone_filter_right _ fun c hc => ?_
  exact decide_eq_true ((of_decide_eq_true hc).mono h)

end Hits

/-! ## §4 Adding to a selection -/

/-- Adding hits to a selection keeps it and appends those that are new, each once, in the order in
which they were found. -/
theorem addToSelection_eq (selection hits : List ObjectRef) :
    addToSelection selection hits = selection ++ (hits.removeAll selection).eraseDups := by
  rw [← foldl_appendNew]
  induction hits generalizing selection with
  | nil => rfl
  | cons hit rest ih => rw [addToSelection, List.foldl_cons, ih]

/-- Hits that were added are not added again. -/
theorem addToSelection_addToSelection (selection hits : List ObjectRef) :
    addToSelection (addToSelection selection hits) hits = addToSelection selection hits := by
  have hnone : hits.removeAll (addToSelection selection hits) = [] := by
    refine List.filter_eq_nil_iff.mpr fun hit hhit => ?_
    rw [addToSelection_eq]
    by_cases hold : hit ∈ selection
    · simp [hold]
    · simp [List.removeAll, hold, hhit]
  rw [addToSelection_eq (addToSelection selection hits), hnone]
  exact List.append_nil _

/-! ## §5 Marquee selection -/

/-- **Marquee selection is exact.** Let all controls be at the floors of the geometry. The four
rectangles that are drawn between two corners have the same hits: band after band and in the order
of each band, the controls of which a point is seen in the area between the corners, edges included.
A rectangle whose area holds this one has all of these hits, in the same order. Without adding, the
hits are the new selection, whatever was selected before. With adding, the selection is kept, and
the hits that are not in it follow, each once, in the order in which they are found; adding the same
hits again changes nothing. -/
theorem marquee_exact {bands : List (Band ℚ)} (hfloors : ∀ c ∈ allObjects bands, c.AboveFloors)
    (x1 y1 x2 y2 : ℚ) :
    let area := Rect.ofCorners x1 y1 x2 y2
    (∀ x y, area.containsPoint x y = true ↔ x ∈ Set.uIcc x1 x2 ∧ y ∈ Set.uIcc y1 y2) ∧
    ∀ rect ∈ Rect.drawnBetween x1 y1 x2 y2,
      let hits := hitTest bands rect
      (hits = bands.flatMap fun band =>
        (band.objects.filter fun c => c.displayBox.Meets area).map fun c => ⟨band.id, c.id⟩) ∧
      (∀ wider : Rect ℚ, (∀ x y, area.containsPoint x y = true →
        wider.normalized.containsPoint x y = true) → hits.Sublist (hitTest bands wider)) ∧
      ∀ current : List ObjectRef,
        marqueeSelect bands current rect .replace = hits ∧
        let added := marqueeSelect bands current rect .add
        added = current ++ (hits.removeAll current).eraseDups ∧
          (hits.removeAll current).eraseDups.Nodup ∧
          marqueeSelect bands added rect .add = added := by
  intro area
  refine ⟨Rect.containsPoint_ofCorners_iff x1 y1 x2 y2, fun rect hrect => ?_⟩
  -- All four ways to draw it come to the same area.
  have harea : rect.normalized = area := Rect.normalized_of_mem_drawnBetween rect hrect
  refine ⟨?_, fun wider hwider => ?_, fun current => ⟨rfl, ?_, nodup_eraseDups _, ?_⟩⟩
  · rw [← harea]
    exact hitTest_eq hfloors rect
  · rw [← harea] at hwider
    exact hitTest_sublist hfloors hwider
  · exact addToSelection_eq current _
  · exact addToSelection_addToSelection current _

private def cornerLogo : Control ℚ :=
  (Control.ofContent "logo" ⟨10, 10, 40, 30⟩ (.image "logo.png")).withBorder (.solid 3)

private def farSeal : Control ℚ := .ofContent "seal" ⟨400, 0, 30, 30⟩ (.image "seal.png")

/-- A line without any width, upwards along the edge of the area. -/
private def marginRule : Control ℚ := .ofLine "margin" (.thin 100 170 100 120)

private def sheetBelowLogo : List (Band ℚ) :=
  [{ Band.ofHeight "h" "Header" .header 0 100 with objects := [farSeal, cornerLogo] },
    { Band.ofHeight "d" "Detail" .detail 100 100 with
      objects := [marginRule, .ofLine "rule" (.thin 90 150 20 150)] }]

/-- Drawn from the lower right to the lower right corner of the logo. -/
private def drawnUpwards : Rect ℚ := ⟨100, 160, -40, -110⟩

theorem marquee_exact_drawnUpwards :
    (∀ c ∈ allObjects sheetBelowLogo, c.AboveFloors) ∧
    drawnUpwards ∈ Rect.drawnBetween (100 : ℚ) 160 60 50 ∧
    hitTest sheetBelowLogo drawnUpwards = [⟨"h", "logo"⟩, ⟨"d", "margin"⟩, ⟨"d", "rule"⟩] ∧
    marqueeSelect sheetBelowLogo [⟨"d", "rule"⟩, ⟨"h", "seal"⟩] drawnUpwards .add =
      [⟨"d", "rule"⟩, ⟨"h", "seal"⟩, ⟨"h", "logo"⟩, ⟨"d", "margin"⟩] := by
  have hfloors : ∀ c ∈ allObjects sheetBelowLogo, c.AboveFloors := by decide +kernel
  have hdrawn : drawnUpwards ∈ Rect.drawnBetween (100 : ℚ) 160 60 50 := by
    norm_num [Rect.drawnBetween, drawnUpwards]
  -- The area was drawn from below on the right; its corners are those of the general theorem.
  obtain ⟨hhits, -, hselect⟩ := (marquee_exact hfloors 100 160 60 50).2 drawnUpwards hdrawn
  have hthree : hitTest sheetBelowLogo drawnUpwards =
      [⟨"h", "logo"⟩, ⟨"d", "margin"⟩, ⟨"d", "rule"⟩] :=
    hhits.trans (by decide +kernel)
  -- The rule is selected before, so only the other two are added.
  obtain ⟨-, hadded, -⟩ := hselect [⟨"d", "rule"⟩, ⟨"h", "seal"⟩]
  refine ⟨hfloors, hdrawn, hthree, hadded.trans ?_⟩
  rw [hthree]
  decide

end BandedReport
