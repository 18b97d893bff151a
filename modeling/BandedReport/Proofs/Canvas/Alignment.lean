import BandedReport.Proofs.Canvas.Locality
import BandedReport.Proofs.Canvas.Relocation

/-!
# Exact alignment

Aligned controls lie exactly where the reference lies: what is seen of each has its edge or its
center where the first of the selection has it. Boxes with any border and lines in any direction
keep the size in which they are seen, and do not move across the direction of the alignment. A
second alignment of the same kind finds nothing to do.

* `Control.SlidAlong` says that a control is the same one elsewhere along an axis;
* `Alignment.coordinate` is what an alignment makes equal;
* `objectAt?_align` says where every selected control is afterwards;
* `align_exact` is the result.
-/

namespace BandedReport

/-! ## §1 Sliding along an axis -/

/-- The other axis. -/
def Axis.cross : Axis → Axis
  | horizontal => vertical
  | vertical => horizontal

namespace Control

/-- The control elsewhere along an axis. -/
def slideAlong (axis : Axis) (distance : ℚ) (c : Control ℚ) : Control ℚ :=
  c.slid (axis.shift distance).1 (axis.shift distance).2

/-- The second control is the first one elsewhere along an axis. It is seen in the same size, and at
the same coordinate on the other axis. -/
structure SlidAlong (axis : Axis) (c c' : Control ℚ) : Prop where
  eq_slideAlong : ∃ distance, c' = c.slideAlong axis distance
  width_eq : c'.displayBox.width = c.displayBox.width
  height_eq : c'.displayBox.height = c.displayBox.height
  cross_eq : axis.cross.leading c'.displayBox = axis.cross.leading c.displayBox

variable (axis : Axis) (distance : ℚ) (c : Control ℚ)

@[simp] theorem slideAlong_zero : c.slideAlong axis 0 = c := by
  cases axis <;> simp [slideAlong, Axis.shift]

theorem leading_slideAlong :
    axis.leading (c.slideAlong axis distance).displayBox =
      axis.leading c.displayBox + distance := by
  cases axis <;>
    simp [slideAlong, Axis.shift, Axis.leading, displayBox_slid, Rect.left, Rect.top]

theorem slidAlong_slideAlong : c.SlidAlong axis (c.slideAlong axis distance) := by
  refine ⟨⟨distance, rfl⟩, ?_, ?_, ?_⟩
  · rw [slideAlong, displayBox_slid]
  · rw [slideAlong, displayBox_slid]
  · cases axis <;>
      simp [slideAlong, Axis.shift, Axis.cross, Axis.leading, displayBox_slid, Rect.left, Rect.top]

theorem SlidAlong.refl : c.SlidAlong axis c := by
  have h := c.slidAlong_slideAlong axis 0
  rwa [slideAlong_zero] at h

variable {axis c}

theorem SlidAlong.id_eq {c' : Control ℚ} (h : c.SlidAlong axis c') : c'.id = c.id := by
  obtain ⟨distance, rfl⟩ := h.eq_slideAlong
  rfl

/-- A shift of a control at the floors along an axis makes it slide, and does nothing else. -/
theorem AboveFloors.translate_shift (h : c.AboveFloors) :
    c.translate (axis.shift distance).1 (axis.shift distance).2 = c.slideAlong axis distance :=
  h.translate_eq _ _

end Control

/-- Updates that make some controls slide change nothing else. -/
theorem changedOnlyAt_slides {axis : Axis} {bands : List (Band ℚ)} {found : List (Selected ℚ)}
    (hfound : ∀ s ∈ found, s.IsIn bands) {updates : List (Update ℚ)}
    (hupdates : ∀ u ∈ updates, ∃ s ∈ found, u.place = s.place ∧
      ∃ distance, u.object = s.object.slideAlong axis distance) :
    ChangedOnlyAt (Control.SlidAlong axis) (found.map Selected.place) bands
      (replaceObjects bands updates) := by
  refine changedOnlyAt_replaceObjects (Control.SlidAlong.refl axis)
    (fun _ _ => Control.SlidAlong.id_eq) hfound fun u hu => ?_
  obtain ⟨s, hs, hplace, distance, hobject⟩ := hupdates u hu
  exact ⟨s, hs, hplace, hobject ▸ s.object.slidAlong_slideAlong axis distance⟩

/-! ## §2 What an alignment makes equal -/

namespace Alignment

/-- The axis along which controls are aligned. -/
def axis : Alignment → Axis
  | left | right | horizontalCenter => .horizontal
  | top | bottom | verticalCenter => .vertical

/-- The coordinate of the edge or the center of a box on which controls are aligned. -/
def coordinate {κ : Type} [Coordinate κ] (a : Alignment) (r : Rect κ) : κ :=
  match a with
  | left => r.left
  | right => r.right
  | top => r.top
  | bottom => r.bottom
  | horizontalCenter => r.centerX
  | verticalCenter => r.centerY

theorem delta_eq (a : Alignment) (reference target : Rect ℚ) :
    a.delta reference target = a.axis.shift (a.coordinate reference - a.coordinate target) := by
  cases a <;> rfl

theorem coordinate_slideAlong (a : Alignment) (distance : ℚ) (c : Control ℚ) :
    a.coordinate (c.slideAlong a.axis distance).displayBox =
      a.coordinate c.displayBox + distance := by
  rw [Control.slideAlong, Control.displayBox_slid]
  cases a <;>
    simp only [coordinate, axis, Axis.shift, Rect.left, Rect.right, Rect.top, Rect.bottom,
      Rect.centerX, Rect.centerY] <;> ring

/-- How far a control is from the reference. -/
def distance (a : Alignment) (reference c : Control ℚ) : ℚ :=
  a.coordinate reference.displayBox - a.coordinate c.displayBox

end Alignment

/-! ## §3 Aligning -/

section Aligning

variable {bands : List (Band ℚ)} (hfloors : ∀ c ∈ allObjects bands, c.AboveFloors)
  {selection : List ObjectRef} (a : Alignment) {first : Selected ℚ} {rest : List (Selected ℚ)}
  (hresolve : resolve bands selection = first :: rest)

include hfloors hresolve

/-- The updates of an alignment, one for each selected control but the first. -/
theorem align_eq : align bands selection a = replaceObjects bands (rest.map fun s =>
    ⟨s.bandIndex, s.objectIndex,
      s.object.slideAlong a.axis (a.distance first.object s.object)⟩) := by
  have hrest : ∀ s ∈ rest, s.object.AboveFloors := by
    intro s hs
    have hmem : s ∈ resolve bands selection := hresolve ▸ List.mem_cons_of_mem _ hs
    exact hfloors _ (isIn_of_mem_resolve hmem).mem_allObjects
  rw [align, alignmentDeltas, hresolve, List.map_map]
  refine congrArg (replaceObjects bands) (List.map_congr_left fun s hs => ?_)
  simp only [Function.comp_apply, Alignment.delta_eq]
  rw [(hrest s hs).translate_shift]
  rfl

/-- Every selected control has gone the whole distance to the reference. -/
theorem objectAt?_align : ∀ s ∈ first :: rest,
    objectAt? (align bands selection a) s.bandIndex s.objectIndex =
      some (s.object.slideAlong a.axis (a.distance first.object s.object)) := by
  -- No place is selected twice, so every place gets one update at most.
  have hplaces : ((first :: rest).map Selected.place).Nodup :=
    hresolve ▸ nodup_places_resolve bands selection
  obtain ⟨hfirst, hrest⟩ := List.nodup_cons.mp hplaces
  have hin : ∀ s ∈ first :: rest, s.IsIn bands :=
    fun s hs => isIn_of_mem_resolve (hresolve ▸ hs)
  rw [align_eq hfloors a hresolve]
  intro s hs
  rcases List.mem_cons.mp hs with rfl | hs'
  · -- The reference is where it should be, and no update comes to its place.
    rw [Alignment.distance, sub_self, Control.slideAlong_zero]
    refine (objectAt?_replaceObjects_of_not_mem fun u hu hplace => ?_).trans (hin s hs)
    obtain ⟨t, ht, rfl⟩ := List.mem_map.mp hu
    exact hfirst (List.mem_map.mpr ⟨t, ht, hplace⟩)
  · refine objectAt?_replaceObjects_of_mem ?_ (List.mem_map_of_mem hs') (hin s hs)
    rw [List.map_map]
    exact hrest

/-- Whatever the selection resolves to afterwards is where the reference was. -/
theorem coordinate_resolve_align : ∀ s ∈ resolve (align bands selection a) selection,
    a.coordinate s.object.displayBox = a.coordinate first.object.displayBox := by
  intro s hs
  -- It stands at a place of the selection, and there every control is aligned.
  have hplace : s.place ∈ (first :: rest).map Selected.place := by
    rw [← hresolve,
      ← places_resolve_of_outline_eq (align_revised bands selection a).outline_eq selection]
    exact List.mem_map_of_mem hs
  obtain ⟨old, hold, heq⟩ := List.mem_map.mp hplace
  obtain ⟨hband, hobject⟩ := Prod.mk.inj heq
  have haligned := objectAt?_align hfloors a hresolve old hold
  rw [hband, hobject, isIn_of_mem_resolve hs] at haligned
  rw [Option.some.inj haligned, Alignment.coordinate_slideAlong, Alignment.distance,
    add_sub_cancel]

end Aligning

/-- A second alignment of the same kind finds every control at the reference. -/
theorem align_align {bands : List (Band ℚ)} (hfloors : ∀ c ∈ allObjects bands, c.AboveFloors)
    (selection : List ObjectRef) (a : Alignment) :
    align (align bands selection a) selection a = align bands selection a := by
  have hrevised := align_revised bands selection a
  cases hafter : resolve (align bands selection a) selection with
  | nil => rw [align, alignmentDeltas, hafter]; rfl
  | cons reference others =>
    -- There was a reference before, at the same place.
    obtain ⟨first, rest, hresolve⟩ : ∃ first rest, resolve bands selection = first :: rest := by
      apply List.exists_cons_of_ne_nil
      intro hnone
      have hplaces := places_resolve_of_outline_eq hrevised.outline_eq selection
      rw [hafter, hnone] at hplaces
      cases hplaces
    have hcoordinate := coordinate_resolve_align hfloors a hresolve
    rw [hafter] at hcoordinate
    rw [align_eq (hrevised.normalizes.aboveFloors hfloors) a hafter]
    refine replaceObjects_eq_self fun u hu => ?_
    obtain ⟨s, hs, rfl⟩ := List.mem_map.mp hu
    have hmem : s ∈ reference :: others := List.mem_cons_of_mem _ hs
    have hdistance : a.distance reference.object s.object = 0 := by
      rw [Alignment.distance, hcoordinate s hmem, hcoordinate reference List.mem_cons_self,
        sub_self]
    rw [hdistance, Control.slideAlong_zero]
    exact isIn_of_mem_resolve (hafter ▸ hmem)

/-- An alignment makes all selected controls but the first slide. -/
theorem align_slides {bands : List (Band ℚ)} (hfloors : ∀ c ∈ allObjects bands, c.AboveFloors)
    (selection : List ObjectRef) (a : Alignment) :
    ChangedOnlyAt (Control.SlidAlong a.axis) ((resolve bands selection).tail.map Selected.place)
      bands (align bands selection a) := by
  cases hresolve : resolve bands selection with
  | nil =>
    rw [align, alignmentDeltas, hresolve]
    exact changedOnlyAt_slides (List.forall_mem_nil _) (List.forall_mem_nil _)
  | cons first rest =>
    rw [align_eq hfloors a hresolve]
    refine changedOnlyAt_slides (fun s hs => ?_) fun u hu => ?_
    · exact isIn_of_mem_resolve (hresolve ▸ List.mem_cons_of_mem _ hs)
    · obtain ⟨s, hs, rfl⟩ := List.mem_map.mp hu
      exact ⟨s, hs, rfl, _, rfl⟩

/-- **Alignment is exact.** Let all controls be at the floors of the geometry. After an alignment,
every control that the selection resolves to has its edge or its center where the first of them had
it; it is seen in the same size as before, and at the same coordinate on the other axis. Only the
selected controls but the first have changed, and only by sliding along the axis of the alignment.
Aligning again in the same way changes nothing. -/
theorem align_exact {bands : List (Band ℚ)} (hfloors : ∀ c ∈ allObjects bands, c.AboveFloors)
    (selection : List ObjectRef) (a : Alignment) :
    let found := resolve bands selection
    let after := align bands selection a
    (∀ first ∈ found.head?, ∀ s ∈ found, ∃ c,
      objectAt? after s.bandIndex s.objectIndex = some c ∧
      a.coordinate c.displayBox = a.coordinate first.object.displayBox ∧
      s.object.SlidAlong a.axis c) ∧
    ChangedOnlyAt (Control.SlidAlong a.axis) (found.tail.map Selected.place) bands after ∧
    align after selection a = after := by
  intro found after
  refine ⟨fun first hfirst s hs => ?_, align_slides hfloors selection a,
    align_align hfloors selection a⟩
  -- The reference is the first control that is found.
  have hresolve : resolve bands selection = first :: found.tail := List.eq_cons_of_mem_head? hfirst
  -- All the others are moved by their distance to it.
  have hat := objectAt?_align hfloors a hresolve s (hresolve ▸ hs)
  refine ⟨_, hat, ?_, s.object.slidAlong_slideAlong _ _⟩
  rw [Alignment.coordinate_slideAlong, Alignment.distance, add_sub_cancel]

private def framedLogo : Control ℚ :=
  (Control.ofContent "logo" ⟨0, 5, 40, 30⟩ (.image "logo.png")).withBorder (.solid 3)

/-- A line that is drawn from right to left, upwards. -/
private def slantedRule : Control ℚ := .ofLine "rule" (.thin 120 50 70 20)

private def nameField : Control ℚ := .ofContent "name" ⟨150, 65, 80, 20⟩ (.field "name" .general "")

private def askew : List (Band ℚ) :=
  [{ Band.ofHeight "h" "Header" .header 0 60 with objects := [framedLogo, slantedRule] },
    { Band.ofHeight "d" "Detail" .detail 60 40 with objects := [nameField] }]

/-- Across bands, with a control that is not there and one control twice. -/
private def logoFirst : List ObjectRef :=
  [⟨"h", "logo"⟩, ⟨"h", "gone"⟩, ⟨"d", "name"⟩, ⟨"h", "rule"⟩, ⟨"h", "logo"⟩]

theorem align_exact_askew :
    let after := align askew logoFirst .right
    (∀ c ∈ allObjects askew, c.AboveFloors) ∧
    resolve askew logoFirst = [⟨0, 0, framedLogo⟩, ⟨1, 0, nameField⟩, ⟨0, 1, slantedRule⟩] ∧
    framedLogo.displayBox.right = 50 ∧
    (∃ c, objectAt? after 0 1 = some c ∧ c.displayBox.right = 50 ∧
      slantedRule.SlidAlong .horizontal c) ∧
    align after logoFirst .right = after := by
  intro after
  have hfloors : ∀ c ∈ allObjects askew, c.AboveFloors := by decide +kernel
  have hresolve : resolve askew logoFirst =
      [⟨0, 0, framedLogo⟩, ⟨1, 0, nameField⟩, ⟨0, 1, slantedRule⟩] := rfl
  have hright : framedLogo.displayBox.right = 50 := by decide +kernel
  -- The general theorem, read at the rule, which comes last in the selection.
  obtain ⟨haligned, -, hagain⟩ := align_exact hfloors logoFirst .right
  rw [hresolve] at haligned
  obtain ⟨c, hc, hcoordinate, hslid⟩ := haligned _ rfl ⟨0, 1, slantedRule⟩ (by simp)
  exact ⟨hfloors, hresolve, hright, ⟨c, hc, hcoordinate.trans hright, hslid⟩, hagain⟩

end BandedReport
