import BandedReport.Proofs.Canvas.Locality
import BandedReport.Proofs.Canvas.Relocation

/-!
# Equal sizes

Controls that are given the size of another are seen in that size. A box has a border and a padding
of its own, which its frame makes up for, as far as the least size of a frame allows. A line takes
over the size along its own direction only: it keeps its beginning and its direction, and a point,
which has none, grows to the right. All other lines stay as they are.

* `Line.Stretched` says that a line has another length, `Line.stretched_withLength` that the program
  gives it that length wherever its own length is exact;
* `Control.SizedAs` says what becomes of a control that is given the size of another;
* `changedOnlyAt_updatesFor` says what updates for some controls of a selection change;
* `sameSize_exact` is the result.
-/

namespace BandedReport

open Coordinate (ofNat)

/-! ## §1 Lines of another length -/

namespace Line

/-- The second line is the first one with another length. -/
structure Stretched (length : ℚ) (l l' : Line ℚ) : Prop where
  /-- It begins at the same point and looks the same. -/
  rest : l' = { l with x2 := l'.x2, y2 := l'.y2 }
  length_eq : l'.length = length
  direction : l.x1 ≠ l.x2 ∨ l.y1 ≠ l.y2 → ∃ factor : ℚ, 0 ≤ factor ∧
    l'.x2 - l'.x1 = factor * (l.x2 - l.x1) ∧ l'.y2 - l'.y1 = factor * (l.y2 - l.y1)
  /-- A point grows to the right. -/
  ofPoint : l.x1 = l.x2 → l.y1 = l.y2 → l'.x2 = l.x1 + length ∧ l'.y2 = l.y1

/-- The length of the line is a rational number, which is then computed exactly. -/
def HasExactLength (l : Line ℚ) : Prop :=
  l.length * l.length = (l.x2 - l.x1) * (l.x2 - l.x1) + (l.y2 - l.y1) * (l.y2 - l.y1)

theorem length_eq_of_mul_self {l : Line ℚ} {length : ℚ} (hlength : 0 ≤ length)
    (h : (l.x2 - l.x1) * (l.x2 - l.x1) + (l.y2 - l.y1) * (l.y2 - l.y1) = length * length) :
    l.length = length := by
  show Rat.sqrt ((l.x2 - l.x1) * (l.x2 - l.x1) + (l.y2 - l.y1) * (l.y2 - l.y1)) = length
  rw [h, Rat.sqrt_eq, abs_of_nonneg hlength]

theorem zero_le_length (l : Line ℚ) : 0 ≤ l.length := Rat.sqrt_nonneg _

variable {l : Line ℚ}

theorem withLength_of_pos (h : 0 < l.length) (length : ℚ) :
    l.withLength length = { l with
      x2 := l.x1 + (l.x2 - l.x1) / l.length * length
      y2 := l.y1 + (l.y2 - l.y1) / l.length * length } := by
  have hpos : Coordinate.ofNat 0 < l.length := by rwa [Exact.ofNat_zero]
  simp only [withLength, if_pos hpos]

theorem withLength_of_zero (h : l.length = 0) (length : ℚ) :
    l.withLength length = { l with x2 := l.x1 + length, y2 := l.y1 } := by
  have hzero : ¬ Coordinate.ofNat 0 < l.length := by
    rw [Exact.ofNat_zero, h]
    exact lt_irrefl 0
  have hone : (Coordinate.ofNat 1 : ℚ) = 1 := Nat.cast_one
  simp only [withLength, if_neg hzero]
  rw [hone, Exact.ofNat_zero, one_mul, zero_mul, add_zero]

/-- A line whose own length is exact gets any other length exactly. -/
theorem stretched_withLength (hexact : l.HasExactLength) {length : ℚ} (hlength : 0 ≤ length) :
    l.Stretched length (l.withLength length) := by
  unfold HasExactLength at hexact
  rcases l.zero_le_length.eq_or_lt with hzero | hpos
  · -- Only a point has no length.
    rw [← hzero, zero_mul, eq_comm, mul_self_add_mul_self_eq_zero] at hexact
    obtain ⟨hx, hy⟩ := hexact
    rw [withLength_of_zero hzero.symm]
    refine ⟨rfl, length_eq_of_mul_self hlength ?_, fun hother => ?_, fun _ _ => ⟨rfl, rfl⟩⟩
    · dsimp only
      ring
    · rcases hother with hother | hother
      · exact absurd (sub_eq_zero.mp hx).symm hother
      · exact absurd (sub_eq_zero.mp hy).symm hother
  · -- Any other line is scaled by the quotient of the lengths.
    have hne : l.length ≠ 0 := hpos.ne'
    rw [withLength_of_pos hpos]
    refine ⟨rfl, length_eq_of_mul_self hlength ?_, fun _ => ⟨length / l.length, ?_, ?_, ?_⟩,
      fun hx hy => ?_⟩
    · dsimp only
      rw [add_sub_cancel_left, add_sub_cancel_left]
      -- Both sides of the right triangle are scaled alike, so the squares add up to the new length.
      calc (l.x2 - l.x1) / l.length * length * ((l.x2 - l.x1) / l.length * length) +
            (l.y2 - l.y1) / l.length * length * ((l.y2 - l.y1) / l.length * length)
          = ((l.x2 - l.x1) * (l.x2 - l.x1) + (l.y2 - l.y1) * (l.y2 - l.y1)) /
              (l.length * l.length) * (length * length) := by ring
        _ = length * length := by rw [← hexact, div_self (mul_ne_zero hne hne), one_mul]
    · exact div_nonneg hlength hpos.le
    · dsimp only
      ring
    · dsimp only
      ring
    · -- A point has no length at all.
      rw [hx, hy, sub_self, sub_self, zero_mul, add_zero] at hexact
      exact absurd hexact (mul_ne_zero hne hne)

end Line

/-! ## §2 Axes, dimensions and directions -/

namespace Axis

/-- The dimension that is the size along an axis. -/
def dimension : Axis → SizeDimension
  | horizontal => .width
  | vertical => .height

/-- The direction of the lines along an axis. -/
def orientation : Axis → Orientation
  | horizontal => .horizontal
  | vertical => .vertical

/-- What does not ask for the size along an axis asks for the size along the other one alone. -/
theorem eq_dimension_of_not_asked {axis other : Axis} {d : SizeDimension} (hne : other ≠ axis)
    (hd : ¬ (d = axis.dimension ∨ d = .both)) : d = other.dimension := by
  cases axis <;> cases other <;> cases d <;> simp_all [dimension]

end Axis

namespace Line

variable {l : Line ℚ} {axis : Axis}

/-- Lines along an axis have exact lengths. -/
theorem hasExactLength_of_along (h : l.orientation = axis.orientation) : l.HasExactLength := by
  unfold orientation at h
  cases axis with
  | horizontal =>
    -- Along the axis only one of the two coordinates changes, and the length is how far it does.
    have hy : l.y1 = l.y2 := by
      by_contra hne
      rw [if_neg (mt eq_of_beq hne)] at h
      split at h <;> cases h
    have hlength : l.length = |l.x2 - l.x1| :=
      length_eq_of_mul_self (abs_nonneg _) (by rw [hy, sub_self, abs_mul_abs_self]; ring)
    rw [HasExactLength, hlength, abs_mul_abs_self, hy, sub_self, zero_mul, add_zero]
  | vertical =>
    have hx : l.x1 = l.x2 := by
      by_contra hne
      rw [if_neg (mt eq_of_beq hne)] at h
      split at h <;> cases h
    have hlength : l.length = |l.y2 - l.y1| :=
      length_eq_of_mul_self (abs_nonneg _) (by rw [hx, sub_self, abs_mul_abs_self]; ring)
    rw [HasExactLength, hlength, abs_mul_abs_self, hx, sub_self, zero_mul, zero_add]

/-- A line along an axis takes over the size along this axis. -/
theorem lengthFrom?_of_along (h : l.orientation = axis.orientation) (reference : Control ℚ) :
    l.lengthFrom? reference axis.dimension = some (axis.extent reference.displayBox) := by
  unfold lengthFrom?
  rw [h]
  cases axis <;> rfl

/-- Lines in other directions take over nothing, but for diagonal ones if both dimensions are
asked for. -/
theorem lengthFrom?_eq_none {d : SizeDimension}
    (halong : ∀ axis : Axis, l.orientation = axis.orientation → d ≠ axis.dimension)
    (hdiagonal : l.orientation = .diagonal → d ≠ .both) (reference : Control ℚ) :
    l.lengthFrom? reference d = none := by
  unfold lengthFrom?
  dsimp only
  split
  · exact absurd rfl (halong .horizontal ‹_›)
  · exact absurd rfl (halong .vertical ‹_›)
  · exact absurd rfl (hdiagonal ‹_›)
  · rfl

end Line

/-! ## §3 Controls of another size -/

/-- What becomes of a control that is given the size of a reference. -/
structure Control.SizedAs (reference : Control ℚ) (d : SizeDimension) (c c' : Control ℚ) :
    Prop where
  /-- Nothing changes but the size of a box or the second endpoint of a line. -/
  resized : c.Resized c'
  /-- A box is seen where it was. -/
  place : c.isLine = false → ∀ axis : Axis,
    axis.leading c'.displayBox = axis.leading c.displayBox
  /-- In the dimensions that are asked for, a box is seen in the size of the reference, unless its
  frame would be smaller than the least size. -/
  asked : c.isLine = false → ∀ axis : Axis, d = axis.dimension ∨ d = .both →
    axis.extent c'.displayBox =
      max (axis.extent reference.displayBox) (ofNat minControlSize + c.chromeSize)
  other : c.isLine = false → ∀ axis : Axis, ¬ (d = axis.dimension ∨ d = .both) →
    axis.extent c'.displayBox = axis.extent c.displayBox
  /-- A line along the axis of the dimension takes over the size of the reference along it. -/
  along : ∀ l, c.body = .line l → ∀ axis : Axis, l.orientation = axis.orientation →
    d = axis.dimension →
      ∃ l', c' = { c with body := .line l' } ∧ l.Stretched (axis.extent reference.displayBox) l'
  /-- Other lines stay, but for diagonal ones if both dimensions are asked for. -/
  across : ∀ l, c.body = .line l →
    (∀ axis : Axis, l.orientation = axis.orientation → d ≠ axis.dimension) →
      (l.orientation = .diagonal → d ≠ .both) → c' = c

/-- The frame of a box that is seen in the size of another, with its border and padding around it.
The frame has the least size where these leave less. -/
def Frame.seenIn (f : Frame ℚ) (seen : Rect ℚ) (chrome : ℚ) (d : SizeDimension) : Frame ℚ :=
  { f with
    width := if d = .height then f.width else max (seen.width - chrome) (ofNat minControlSize)
    height := if d = .width then f.height else max (seen.height - chrome) (ofNat minControlSize) }

namespace Control

variable {c reference : Control ℚ}

theorem AboveFloors.zero_le_extent (h : c.AboveFloors) (axis : Axis) :
    0 ≤ axis.extent c.displayBox := by
  cases axis with
  | horizontal => exact h.isNormal_displayBox.zero_le_width
  | vertical => exact h.isNormal_displayBox.zero_le_height

/-- The control with the size of a reference, or as it is if its size does not depend on it. -/
def withSizeOf (c reference : Control ℚ) (d : SizeDimension) : Control ℚ :=
  (c.withSizeOf? reference d).getD c

/-- The frame of a box makes up for its border and padding, and keeps to the least size. -/
theorem AboveFloors.withSizeOf_box {f : Frame ℚ} {border : Border ℚ} {content : BoxContent}
    (hc : c.AboveFloors) (hbox : c.body = .box f border content) (reference : Control ℚ)
    (d : SizeDimension) :
    c.withSizeOf reference d =
      { c with body := .box (f.seenIn reference.displayBox c.chromeSize d) border content } := by
  obtain ⟨hz, hbody⟩ := hc
  rw [hbox] at hbody
  obtain ⟨hwidth, hheight, hborder⟩ := hbody
  simp only [withSizeOf, withSizeOf?, hbox, Option.getD_some, normalize, Body.normalize,
    Int.max_eq_left hz, Exact.finiteOr_eq, flooredSize_eq_max, flooredWidth_eq_max,
    max_eq_left hborder]
  -- A dimension that is not asked for is at the floor already.
  cases d <;> simp [Frame.seenIn, max_eq_left hwidth, max_eq_left hheight]

/-- A line at the floors has nothing to be brought there when it gets another length. -/
theorem AboveFloors.withSizeOf_line {l : Line ℚ} (hc : c.AboveFloors) (hline : c.body = .line l)
    (reference : Control ℚ) (d : SizeDimension) :
    c.withSizeOf reference d = match l.lengthFrom? reference d with
      | none => c
      | some length => { c with body := .line (l.withLength length) } := by
  obtain ⟨hz, hbody⟩ := hc
  rw [hline] at hbody
  have hstroke : 0 ≤ l.strokeWidth := hbody
  simp only [withSizeOf, withSizeOf?, hline]
  -- A line is floored as it is, so normalizing changes no more than its length.
  cases l.lengthFrom? reference d with
  | none => rfl
  | some length =>
    simp only [Option.map_some, Option.getD_some, normalize, Body.normalize, Line.withLength,
      Int.max_eq_left hz, flooredWidth_eq_max, max_eq_left hstroke]

/-- What the frame falls short of by the border and the padding is seen again around it. -/
private theorem max_sub_add (size least chrome : ℚ) :
    max (size - chrome) least + chrome = max size (least + chrome) := by
  rw [← max_add_add_right, sub_add_cancel]

theorem AboveFloors.sizedAs_box {f : Frame ℚ} {border : Border ℚ} {content : BoxContent}
    (hc : c.AboveFloors) (hbox : c.body = .box f border content) (d : SizeDimension) :
    reference.SizedAs d c (c.withSizeOf reference d) := by
  have hsized := hc.withSizeOf_box hbox reference d
  obtain ⟨id, zIndex, printVisible, body⟩ := c
  subst hbox
  rw [hsized]
  constructor
  case resized => exact ⟨_, .box f border content _ _, rfl⟩
  case place => exact fun _ axis => by cases axis <;> rfl
  case asked =>
    -- The frame is as large as asked for, or as large as a frame must be.
    intro _ axis hd
    cases axis with
    | horizontal => rcases hd with rfl | rfl <;> exact max_sub_add _ _ _
    | vertical => rcases hd with rfl | rfl <;> exact max_sub_add _ _ _
  -- The side that was not asked for stays; it is the other one of the two.
  case other =>
    intro _ axis hd
    cases axis with
    | horizontal =>
      have hcross : Axis.vertical ≠ .horizontal := nofun
      obtain rfl : d = .height := Axis.eq_dimension_of_not_asked hcross hd
      rfl
    | vertical =>
      have hcross : Axis.horizontal ≠ .vertical := nofun
      obtain rfl : d = .width := Axis.eq_dimension_of_not_asked hcross hd
      rfl
  case along =>
    intro l hline
    cases hline
  case across =>
    intro l hline
    cases hline

theorem AboveFloors.sizedAs_line {l : Line ℚ} (hc : c.AboveFloors) (hline : c.body = .line l)
    (hreference : reference.AboveFloors) (d : SizeDimension) :
    reference.SizedAs d c (c.withSizeOf reference d) := by
  have hsized := hc.withSizeOf_line hline reference d
  obtain ⟨id, zIndex, printVisible, body⟩ := c
  subst hline
  rw [hsized]
  constructor
  case resized =>
    -- A line has at most its length changed.
    cases l.lengthFrom? reference d with
    | none => exact .refl _
    | some length => exact ⟨_, .line l _ _, rfl⟩
  case place => nofun
  case asked => nofun
  case other => nofun
  -- Along the axis the line gets the extent of the reference, which is not negative.
  case along =>
    rintro l' ⟨rfl⟩ axis haxis rfl
    rw [Line.lengthFrom?_of_along haxis]
    exact ⟨_, rfl, l.stretched_withLength (Line.hasExactLength_of_along haxis)
      (hreference.zero_le_extent axis)⟩
  -- Across the axis, and where it is slanted, there is no length to take.
  case across =>
    rintro l' ⟨rfl⟩ halong hdiagonal
    rw [Line.lengthFrom?_eq_none halong hdiagonal]

/-- A control at the floors that is given the size of another becomes what it should. -/
theorem AboveFloors.sizedAs_withSizeOf (hc : c.AboveFloors) (hreference : reference.AboveFloors)
    (d : SizeDimension) : reference.SizedAs d c (c.withSizeOf reference d) := by
  cases hbody : c.body with
  | box f border content => exact hc.sizedAs_box hbody d
  | line l => exact hc.sizedAs_line hbody hreference d

end Control

/-! ## §4 Selections of which some controls are updated -/

section Updating

variable {κ : Type} {bands : List (Band κ)} {found : List (Selected κ)}
  (f : Selected κ → Option (Control κ))

/-- The updates for those controls of a selection for which there is one. -/
def updatesFor (found : List (Selected κ)) : List (Update κ) :=
  found.filterMap fun s => (f s).map fun c => ⟨s.bandIndex, s.objectIndex, c⟩

theorem mem_updatesFor {u : Update κ} :
    u ∈ updatesFor f found ↔ ∃ s ∈ found, ∃ c, f s = some c ∧
      ⟨s.bandIndex, s.objectIndex, c⟩ = u := by
  simp only [updatesFor, List.mem_filterMap, Option.map_eq_some_iff]

theorem places_updatesFor_sublist :
    ((updatesFor f found).map Update.place).Sublist (found.map Selected.place) := by
  induction found with
  | nil => exact .slnil
  | cons s rest ih =>
    rw [updatesFor, List.filterMap_cons]
    cases f s with
    | none => exact ih.cons _
    | some c => exact ih.cons_cons _

/-- At its place stands the control that an update put there, or the one that was found. -/
theorem objectAt?_replaceObjects_updatesFor (hfound : ∀ s ∈ found, s.IsIn bands)
    (hnodup : (found.map Selected.place).Nodup) : ∀ s ∈ found,
      objectAt? (replaceObjects bands (updatesFor f found)) s.bandIndex s.objectIndex =
        some ((f s).getD s.object) := by
  intro s hs
  cases hf : f s with
  | none =>
    refine (objectAt?_replaceObjects_of_not_mem fun u hu hplace => ?_).trans (hfound s hs)
    obtain ⟨t, ht, c, hc, rfl⟩ := (mem_updatesFor f).mp hu
    -- An update at this place would come from the same control.
    obtain rfl := List.inj_on_of_nodup_map hnodup ht hs hplace
    rw [hf] at hc
    cases hc
  | some c =>
    have hu : (⟨s.bandIndex, s.objectIndex, c⟩ : Update κ) ∈ updatesFor f found :=
      (mem_updatesFor f).mpr ⟨s, hs, c, hf, rfl⟩
    exact objectAt?_replaceObjects_of_mem ((places_updatesFor_sublist f).nodup hnodup) hu
      (hfound s hs)

/-- Such updates change the places of the selection only, each as its control is to change. -/
theorem changedOnlyAt_updatesFor {change : Control κ → Control κ → Prop}
    (hid : ∀ c c', change c c' → c'.id = c.id) (hfound : ∀ s ∈ found, s.IsIn bands)
    (hnodup : (found.map Selected.place).Nodup)
    (hchange : ∀ s ∈ found, change s.object ((f s).getD s.object)) :
    ChangedOnlyAt change (found.map Selected.place) bands
      (replaceObjects bands (updatesFor f found)) where
  emptied_eq := emptied_replaceObjects bands _
  outline_eq := by
    apply outline_replaceObjects
    intro u hu
    obtain ⟨s, hs, c, hc, rfl⟩ := (mem_updatesFor f).mp hu
    have hchanged := hchange s hs
    -- The identifiers stay where the controls are.
    rw [hc, Option.getD_some] at hchanged
    rw [hfound s hs, Option.map_some, hid _ _ hchanged]
  changed := by
    intro place hplace
    obtain ⟨s, hs, rfl⟩ := List.mem_map.mp hplace
    exact ⟨s.object, _, hfound s hs, objectAt?_replaceObjects_updatesFor f hfound hnodup s hs,
      hchange s hs⟩
  unchanged := by
    intro place hplace
    -- An update comes to a place of the selection only.
    refine objectAt?_replaceObjects_of_not_mem fun u hu huplace => hplace ?_
    have hmem : u.place ∈ found.map Selected.place :=
      (places_updatesFor_sublist f).subset (List.mem_map_of_mem hu)
    rwa [show u.place = place from huplace] at hmem

end Updating

/-! ## §5 Equal sizes -/

theorem sameSize_eq {bands : List (Band ℚ)} {selection : List ObjectRef} {first : Selected ℚ}
    {rest : List (Selected ℚ)} (hresolve : resolve bands selection = first :: rest)
    (d : SizeDimension) :
    sameSize bands selection d =
      replaceObjects bands (updatesFor (fun s => s.object.withSizeOf? first.object d) rest) := by
  rw [sameSize, hresolve]
  rfl

/-- **Equal sizes are sizes as they are seen.** Let all controls be at the floors of the geometry.
When the controls that a selection resolves to are given the size of the first, every box among the
others is seen in the width or the height of the first, or in both, as far as the least size of its
frame with its own border and padding around it allows; it stays where it is and keeps the dimension
that is not asked for. A line takes over the width if it is horizontal and the height if it is
vertical, keeping its beginning and its direction; a point grows to the right. Lines for which
nothing is asked stay as they are, and so do the first control and all that are not selected. -/
theorem sameSize_exact {bands : List (Band ℚ)} (hfloors : ∀ c ∈ allObjects bands, c.AboveFloors)
    (selection : List ObjectRef) (d : SizeDimension) :
    let found := resolve bands selection
    ∀ first ∈ found.head?,
      first.place ∉ found.tail.map Selected.place ∧
      ChangedOnlyAt (first.object.SizedAs d) (found.tail.map Selected.place) bands
        (sameSize bands selection d) := by
  intro found first hfirst
  have hresolve : resolve bands selection = first :: found.tail := List.eq_cons_of_mem_head? hfirst
  -- Every control of the selection stands in its band, above the floors.
  have hfloored : ∀ s ∈ first :: found.tail, s.IsIn bands ∧ s.object.AboveFloors := by
    intro s hs
    have hin : s.IsIn bands := isIn_of_mem_resolve (hresolve ▸ hs)
    exact ⟨hin, hfloors _ hin.mem_allObjects⟩
  obtain ⟨⟨-, hfirst⟩, hrest⟩ := List.forall_mem_cons.mp hfloored
  -- The places are distinct, so the reference is not among those that are changed.
  have hplaces := nodup_places_resolve bands selection
  rw [hresolve] at hplaces
  obtain ⟨hother, hplaces⟩ := List.nodup_cons.mp hplaces
  refine ⟨hother, ?_⟩
  rw [sameSize_eq hresolve]
  refine changedOnlyAt_updatesFor _ (fun _ _ hsized => hsized.resized.id_eq)
    (fun s hs => (hrest s hs).1) hplaces fun s hs => ?_
  exact (hrest s hs).2.sizedAs_withSizeOf hfirst d

/-- As it is seen, 104 wide and 44 high. -/
private def title : Control ℚ := .ofContent "title" ⟨0, 0, 100, 40⟩ (.text "Title")

/-- A box whose border and padding alone are 104 wide. -/
private def thickFramed : Control ℚ :=
  (Control.ofContent "thick" ⟨200, 0, 60, 30⟩ (.image "seal.png")).withBorder (.solid 50)

/-- A line that is drawn from right to left. -/
private def leftward : Control ℚ := .ofLine "leftward" (.thin 50 10 0 10)

private def dot : Control ℚ := .ofLine "dot" (.thin 7 20 7 20)

private def upright : Control ℚ := .ofLine "upright" (.thin 30 0 30 25)

private def unequal : List (Band ℚ) :=
  [{ Band.ofHeight "h" "Header" .header 0 200 with
    objects := [thickFramed, leftward, title, dot, upright] }]

private def titleFirst : List ObjectRef :=
  [⟨"h", "title"⟩, ⟨"h", "thick"⟩, ⟨"h", "leftward"⟩, ⟨"h", "dot"⟩, ⟨"h", "upright"⟩]

/-- The box gets the least width between its borders, the lines get the width of the title. -/
theorem sameSize_exact_unequal :
    let after := sameSize unequal titleFirst .width
    (∀ c ∈ allObjects unequal, c.AboveFloors) ∧
    (resolve unequal titleFirst).head? = some ⟨0, 2, title⟩ ∧
    (∃ c, objectAt? after 0 0 = some c ∧ c.displayBox.width = 124 ∧ c.displayBox.height = 134) ∧
    (∃ c l, objectAt? after 0 1 = some c ∧ c.body = .line l ∧ l.length = 104 ∧ l.x1 = 50) ∧
    (∃ c l, objectAt? after 0 3 = some c ∧ c.body = .line l ∧ l.x1 = 7 ∧ l.x2 = 111) ∧
    objectAt? after 0 4 = some upright := by
  intro after
  have hfloors : ∀ c ∈ allObjects unequal, c.AboveFloors := by decide +kernel
  have hfirst : (resolve unequal titleFirst).head? = some ⟨0, 2, title⟩ := rfl
  have hwidth : title.displayBox.width = 104 := by decide +kernel
  obtain ⟨-, hchanged⟩ := sameSize_exact hfloors titleFirst .width _ hfirst
  refine ⟨hfloors, hfirst, ?_, ?_, ?_, ?_⟩
  · -- The box takes the width of the title and keeps its height.
    obtain ⟨_, c, ⟨⟩, hc, hsized⟩ := hchanged.changed (0, 0) (by decide +kernel)
    refine ⟨c, hc, (hsized.asked rfl .horizontal (.inl rfl)).trans (by decide +kernel),
      (hsized.other rfl .vertical (by decide)).trans (by decide +kernel)⟩
  · -- The slanted line takes the width as its length and keeps its first end.
    obtain ⟨_, c, ⟨⟩, hc, hsized⟩ := hchanged.changed (0, 1) (by decide +kernel)
    obtain ⟨l, rfl, hstretched⟩ := hsized.along _ rfl .horizontal (by decide +kernel) rfl
    exact ⟨_, l, hc, rfl, hstretched.length_eq.trans hwidth, by rw [hstretched.rest]; rfl⟩
  · -- The point becomes a line to the right.
    obtain ⟨_, c, ⟨⟩, hc, hsized⟩ := hchanged.changed (0, 3) (by decide +kernel)
    obtain ⟨l, rfl, hstretched⟩ := hsized.along _ rfl .horizontal (by decide +kernel) rfl
    have hend : l.x2 = 7 + title.displayBox.width := (hstretched.ofPoint rfl rfl).1
    refine ⟨_, l, hc, rfl, by rw [hstretched.rest]; rfl, ?_⟩
    rw [hend, hwidth]
    norm_num
  · -- The upright line has no extent along the axis, so it is left alone.
    obtain ⟨_, c, ⟨⟩, hc, hsized⟩ := hchanged.changed (0, 4) (by decide +kernel)
    have hacross : ∀ axis : Axis, (Line.thin (30 : ℚ) 0 30 25).orientation = axis.orientation →
        SizeDimension.width ≠ axis.dimension := by
      intro axis haxis
      cases axis with
      | horizontal => exact absurd haxis (by decide +kernel)
      | vertical => exact nofun
    rw [hc, hsized.across _ rfl hacross (by decide +kernel)]

end BandedReport
