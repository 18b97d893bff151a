import BandedReport.Proofs.Canvas.Alignment
import BandedReport.Proofs.Counterparts

/-!
# Even distribution

Distributed controls have the same gap between any two neighbours along the axis. The gap is
computed once, from the span of the outermost two and the sizes of all; the controls between them
are then placed one after the other, each one gap behind the one before. That the last gap comes out
equal as well, although the last control is never placed, is a matter of adding up.

* `Axis.order_stable` says in which order the controls are taken;
* `distribute_eq_placeWithGap` is the distribution in terms of the outermost two and the rest;
* `isChain_placeWithGap` says that the gaps are equal if the last one closes;
* `leading_last` says that it closes with the gap that is computed;
* `distribute_even` is the result.
-/

namespace BandedReport

/-! ## §1 Gaps along an axis -/

namespace Axis

section Definitions

variable {κ : Type} [Coordinate κ]

/-- The edge of a box that comes last along the axis. -/
def trailing (axis : Axis) (r : Rect κ) : κ := axis.leading r + axis.extent r

/-- The distance from where one control ends to where another begins along the axis; it is negative
where they overlap. -/
def gapBetween (axis : Axis) (c d : Control κ) : κ :=
  axis.leading d.displayBox - axis.trailing c.displayBox

/-- The gap that remains for each two neighbours between the outermost of some controls. -/
def evenGap (axis : Axis) (order : List (Selected κ)) (first last : Selected κ) : κ :=
  (axis.leading last.object.displayBox + axis.extent last.object.displayBox -
    axis.leading first.object.displayBox -
      Coordinate.sum (order.map fun s => axis.extent s.object.displayBox)) /
    Coordinate.ofNat (order.length - 1)

end Definitions

end Axis

theorem Control.trailing_slideAlong (axis : Axis) (distance : ℚ) (c : Control ℚ) :
    axis.trailing (c.slideAlong axis distance).displayBox =
      axis.trailing c.displayBox + distance := by
  have hslid := c.slidAlong_slideAlong axis distance
  have hextent : axis.extent (c.slideAlong axis distance).displayBox =
      axis.extent c.displayBox := by
    cases axis
    · exact hslid.width_eq
    · exact hslid.height_eq
  rw [Axis.trailing, hextent, leading_slideAlong, Axis.trailing]
  ring

/-! ## §2 The order of the controls -/

/-- In their order the controls are the selected ones, by their leading edges; those with the same
leading edge are in the order of the selection. -/
theorem Axis.order_stable (axis : Axis) (found : List (Selected ℚ)) :
    (axis.order found).Perm found ∧
    (axis.order found).Pairwise (fun s t =>
      axis.leading s.object.displayBox ≤ axis.leading t.object.displayBox) ∧
    ∀ tied : List (Selected ℚ), tied.Sublist found →
      tied.Pairwise (fun s t =>
        axis.leading s.object.displayBox = axis.leading t.object.displayBox) →
      tied.Sublist (axis.order found) := by
  -- Edges are compared by a total order, which is all that sorting asks for.
  have htrans : ∀ s t u : Selected ℚ,
      Coordinate.precedes (axis.leading s.object.displayBox) (axis.leading t.object.displayBox) →
      Coordinate.precedes (axis.leading t.object.displayBox) (axis.leading u.object.displayBox) →
      Coordinate.precedes (axis.leading s.object.displayBox)
        (axis.leading u.object.displayBox) := by
    simp only [Coordinate.precedes, decide_eq_true_eq]
    exact fun _ _ _ => le_trans
  have htotal : ∀ s t : Selected ℚ,
      Coordinate.precedes (axis.leading s.object.displayBox) (axis.leading t.object.displayBox) ||
      Coordinate.precedes (axis.leading t.object.displayBox)
        (axis.leading s.object.displayBox) := by
    simp only [Coordinate.precedes, Bool.or_eq_true, decide_eq_true_eq]
    exact fun _ _ => le_total _ _
  refine ⟨List.mergeSort_perm _ _, ?_, fun tied hsub htied => ?_⟩
  · exact (List.pairwise_mergeSort htrans htotal found).imp of_decide_eq_true
  · -- Sorting is stable, and what is tied is sorted.
    exact List.sublist_mergeSort htrans htotal
      (htied.imp fun hst => decide_eq_true (le_of_eq hst)) hsub

/-- A control that was found, with what is seen of it. -/
def Selected.withBox {κ : Type} [Coordinate κ] (s : Selected κ) : Selected κ × Rect κ :=
  (s, s.object.displayBox)

theorem Axis.map_withBox_order {κ : Type} [Coordinate κ] (axis : Axis)
    (found : List (Selected κ)) :
    (axis.order found).map Selected.withBox = (found.map Selected.withBox).mergeSort fun a b =>
      Coordinate.precedes (axis.leading a.2) (axis.leading b.2) :=
  List.map_mergeSort fun _ _ _ _ => rfl

/-- A distribution leaves the first and the last control where they are, and places the others with
the even gap. -/
theorem distribute_eq_placeWithGap {κ : Type} [Coordinate κ] {bands : List (Band κ)}
    {selection : List ObjectRef} {axis : Axis} {first last : Selected κ}
    {middle : List (Selected κ)}
    (horder : axis.order (resolve bands selection) = first :: (middle ++ [last]))
    (hmiddle : middle ≠ []) :
    distribute bands selection axis = replaceObjects bands
      (placeWithGap axis (axis.evenGap (first :: (middle ++ [last])) first last)
        (axis.trailing first.object.displayBox) (middle.map Selected.withBox)) := by
  -- The program takes the sorted list apart at its second member, and then at its last.
  obtain ⟨second, more, rfl⟩ := List.exists_cons_of_ne_nil hmiddle
  have hsorted := axis.map_withBox_order (resolve bands selection)
  rw [horder] at hsorted
  -- Behind the second there is at least the last one.
  obtain ⟨third, others, htail⟩ : ∃ third others, more ++ [last] = third :: others :=
    List.exists_cons_of_ne_nil (by simp)
  -- The last one and those between, as the program finds them in what it has sorted.
  have hlast : (third.withBox :: others.map Selected.withBox).getLast (List.cons_ne_nil _ _) =
      last.withBox := by
    simp only [← List.map_cons, ← htail, List.getLast_map, List.getLast_concat]
  have hbetween : (third.withBox :: others.map Selected.withBox).dropLast =
      more.map Selected.withBox := by
    rw [← List.map_cons, ← htail, ← List.map_dropLast, List.dropLast_concat]
  rw [List.cons_append, htail] at hsorted ⊢
  unfold distribute
  dsimp only
  rw [← show _ = List.mergeSort (List.map (fun s => (s, s.object.displayBox))
    (resolve bands selection)) _ from hsorted]
  simp only [List.map_cons, hlast, hbetween]
  simp only [Axis.evenGap, Axis.trailing, Selected.withBox, List.map_cons, List.map_map,
    List.length_cons, List.length_map, Function.comp_def]

/-! ## §3 Placing with a gap -/

section Placing

variable {axis : Axis} {gap edge : ℚ}

/-- The control one gap behind an edge, along an axis. -/
def Control.placedBehind (axis : Axis) (edge gap : ℚ) (c : Control ℚ) : Control ℚ :=
  c.slideAlong axis (edge + gap - axis.leading c.displayBox)

theorem Control.leading_placedBehind (c : Control ℚ) :
    axis.leading (c.placedBehind axis edge gap).displayBox = edge + gap := by
  rw [placedBehind, leading_slideAlong, add_sub_cancel]

theorem Control.trailing_placedBehind (c : Control ℚ) :
    axis.trailing (c.placedBehind axis edge gap).displayBox =
      edge + gap + axis.extent c.displayBox := by
  rw [placedBehind, trailing_slideAlong, Axis.trailing]
  ring

/-- The first control is placed one gap behind the edge, the others behind the first. -/
theorem placeWithGap_cons {s : Selected ℚ} (hs : s.object.AboveFloors)
    (rest : List (Selected ℚ × Rect ℚ)) :
    let placed := s.object.placedBehind axis edge gap
    placeWithGap axis gap edge (s.withBox :: rest) = ⟨s.bandIndex, s.objectIndex, placed⟩ ::
      placeWithGap axis gap (axis.trailing placed.displayBox) rest := by
  intro placed
  rw [show axis.trailing placed.displayBox = _ from s.object.trailing_placedBehind,
    show placed = _ from (hs.translate_shift _).symm]
  rfl

variable {middle : List (Selected ℚ)} (hmiddle : ∀ s ∈ middle, s.object.AboveFloors)

include hmiddle

/-- Controls that are placed slide along the axis. -/
theorem forall₂_placeWithGap :
    List.Forall₂ (fun s u => u.place = s.place ∧
        ∃ distance, u.object = s.object.slideAlong axis distance)
      middle (placeWithGap axis gap edge (middle.map Selected.withBox)) := by
  -- Each control that is placed gives the edge for the next one.
  induction middle generalizing edge with
  | nil => exact .nil
  | cons s rest ih =>
    obtain ⟨hs, hrest⟩ := List.forall_mem_cons.mp hmiddle
    rw [List.map_cons, placeWithGap_cons hs]
    exact .cons ⟨rfl, _, rfl⟩ (ih hrest)

/-- Controls that are placed with a gap behind a first one leave this gap everywhere, if there is as
much room before the last one as they and the gaps need. -/
theorem isChain_placeWithGap {first last : Control ℚ}
    (hlast : axis.leading last.displayBox = axis.trailing first.displayBox +
      (middle.map fun s => gap + axis.extent s.object.displayBox).sum + gap) :
    (first :: ((placeWithGap axis gap (axis.trailing first.displayBox)
      (middle.map Selected.withBox)).map (·.object) ++ [last])).IsChain
        fun c d => axis.gapBetween c d = gap := by
  -- Each control that is placed takes the part of the first one for those behind it.
  induction middle generalizing first with
  | nil =>
    refine List.isChain_pair.mpr ?_
    rw [Axis.gapBetween, hlast, List.map_nil, List.sum_nil]
    ring
  | cons s rest ih =>
    obtain ⟨hs, hrest⟩ := List.forall_mem_cons.mp hmiddle
    rw [List.map_cons, placeWithGap_cons hs, List.map_cons, List.cons_append]
    refine List.isChain_cons_cons.mpr ⟨?_, ih hrest ?_⟩
    · -- The gap in front of a control that is placed is the one it was placed with.
      rw [Axis.gapBetween, Control.leading_placedBehind, add_sub_cancel_left]
    · -- Behind it, the last one is as far away as before.
      rw [hlast, Control.trailing_placedBehind, List.map_cons, List.sum_cons]
      ring

end Placing

/-- The even gap is the one that closes: it fills what the controls leave of the span. -/
theorem Axis.leading_last (axis : Axis) (first last : Selected ℚ) (middle : List (Selected ℚ)) :
    let gap := axis.evenGap (first :: (middle ++ [last])) first last
    axis.leading last.object.displayBox = axis.trailing first.object.displayBox +
      (middle.map fun s => gap + axis.extent s.object.displayBox).sum + gap := by
  intro gap
  -- There is one gap more than there are controls between the outermost two.
  have hgap : gap * (middle.length + 1) = axis.leading last.object.displayBox +
      axis.extent last.object.displayBox - axis.leading first.object.displayBox -
      (axis.extent first.object.displayBox +
        ((middle.map fun s => axis.extent s.object.displayBox).sum +
          axis.extent last.object.displayBox)) := by
    have hlength : (Coordinate.ofNat ((first :: (middle ++ [last])).length - 1) : ℚ) =
        middle.length + 1 := by
      simp [Coordinate.ofNat]
    have hpositive : (middle.length : ℚ) + 1 ≠ 0 := by positivity
    simp only [gap, evenGap, hlength, Exact.sum_eq, List.map_cons, List.map_append, List.map_nil,
      List.sum_cons, List.sum_append, List.sum_nil, add_zero]
    exact div_mul_cancel₀ _ hpositive
  -- All controls between are put one gap behind the one before.
  have hsum : (middle.map fun s => gap + axis.extent s.object.displayBox).sum =
      middle.length * gap + (middle.map fun s => axis.extent s.object.displayBox).sum := by
    rw [List.sum_map_add, List.map_const', List.sum_replicate, nsmul_eq_mul]
  rw [hsum, trailing]
  linarith

/-! ## §4 Distributing -/

/-- A list of at least three has something between its first and its last. -/
private theorem exists_between {α : Type} {l : List α} (h : 3 ≤ l.length) :
    ∃ first middle last, l = first :: (middle ++ [last]) ∧ middle ≠ [] := by
  match l, h with
  | first :: second :: third :: more, _ =>
    refine ⟨first, second :: (third :: more).dropLast,
      (third :: more).getLast (List.cons_ne_nil _ _), ?_, List.cons_ne_nil _ _⟩
    rw [List.cons_append, List.dropLast_append_getLast]

/-- Updates of controls at different places leave there what they put there. -/
theorem forall₂_objectAt?_replaceObjects {bands : List (Band ℚ)} {found : List (Selected ℚ)}
    {updates : List (Update ℚ)} {R : Control ℚ → Control ℚ → Prop}
    (hfound : ∀ s ∈ found, s.IsIn bands) (hnodup : (found.map Selected.place).Nodup)
    (h : List.Forall₂ (fun s u => u.place = s.place ∧ R s.object u.object) found updates) :
    List.Forall₂ (fun s c => objectAt? (replaceObjects bands updates) s.bandIndex s.objectIndex =
      some c ∧ R s.object c) found (updates.map (·.object)) := by
  have hplaces : (updates.map Update.place).Nodup := by
    rwa [map_eq_of_forall₂ (h.imp fun _ _ hu => hu.1)]
  rw [List.forall₂_map_right_iff, List.forall₂_iff_zip]
  refine ⟨h.length_eq, fun {s u} hpair => ?_⟩
  obtain ⟨hs, hu⟩ := List.of_mem_zip hpair
  obtain ⟨hplace, hobject⟩ := List.forall₂_zip h hpair
  obtain ⟨hband, hindex⟩ := Prod.mk.inj hplace
  -- The update comes to the place of its control, and to no other.
  have hat : objectAt? bands u.bandIndex u.objectIndex = some s.object := by
    rw [hband, hindex]
    exact hfound s hs
  rw [← hband, ← hindex]
  exact ⟨objectAt?_replaceObjects_of_mem hplaces hu hat, hobject⟩

section Distributing

variable {bands : List (Band ℚ)} (hfloors : ∀ c ∈ allObjects bands, c.AboveFloors)
  {selection : List ObjectRef} {axis : Axis} {first last : Selected ℚ}
  {middle : List (Selected ℚ)}
  (horder : axis.order (resolve bands selection) = first :: (middle ++ [last]))
  (hmiddle : middle ≠ [])

include horder

theorem isIn_of_mem_order : ∀ s ∈ first :: (middle ++ [last]), s.IsIn bands := by
  intro s hs
  rw [← horder] at hs
  exact isIn_of_mem_resolve (List.mem_mergeSort.mp hs)

/-- The controls between the outermost two stand at different places, and neither of the two stands
at one of these. -/
theorem places_middle : (middle.map Selected.place).Nodup ∧
    ∀ s, s = first ∨ s = last → s.place ∉ middle.map Selected.place := by
  have hplaces : ((first :: (middle ++ [last])).map Selected.place).Nodup := by
    rw [← horder, ((axis.order_stable _).1.map Selected.place).nodup_iff]
    exact nodup_places_resolve bands selection
  rw [List.map_cons, List.map_append, List.nodup_cons, List.nodup_append] at hplaces
  obtain ⟨hfirst, hmiddle, -, hlast⟩ := hplaces
  refine ⟨hmiddle, fun s hs => ?_⟩
  rcases hs with rfl | rfl
  · exact fun hmem => hfirst (List.mem_append_left _ hmem)
  · exact fun hmem => hlast _ hmem _ (by simp) rfl

include hfloors

theorem aboveFloors_of_mem_middle : ∀ s ∈ middle, s.object.AboveFloors := fun s hs =>
  hfloors _ (isIn_of_mem_order horder s (by simp [hs])).mem_allObjects

include hmiddle

/-- A distribution makes the controls between the outermost two slide. -/
theorem distribute_slides : ChangedOnlyAt (Control.SlidAlong axis) (middle.map Selected.place) bands
    (distribute bands selection axis) := by
  rw [distribute_eq_placeWithGap horder hmiddle]
  refine changedOnlyAt_slides (fun s hs => isIn_of_mem_order horder s (by simp [hs])) ?_
  refine forall_mem_of_forall₂
    (forall₂_placeWithGap (aboveFloors_of_mem_middle hfloors horder)) ?_
  exact fun s hs u hu => ⟨s, hs, hu⟩

/-- The outermost two stay. -/
theorem objectAt?_distribute_outermost : ∀ s, s = first ∨ s = last →
    objectAt? (distribute bands selection axis) s.bandIndex s.objectIndex = some s.object := by
  intro s hs
  have hplace := (places_middle horder).2 s hs
  have hin : s.IsIn bands := isIn_of_mem_order horder s (by rcases hs with rfl | rfl <;> simp)
  exact ((distribute_slides hfloors horder hmiddle).unchanged s.place hplace).trans hin

/-- After a distribution the controls, in their order, have slid to places with the same gap
everywhere. -/
theorem exists_distributed : ∃ (gap : ℚ) (placed : List (Control ℚ)),
    List.Forall₂ (fun s c => objectAt? (distribute bands selection axis) s.bandIndex s.objectIndex =
      some c ∧ s.object.SlidAlong axis c) (first :: (middle ++ [last])) placed ∧
    placed.IsChain fun c d => axis.gapBetween c d = gap := by
  -- The outermost two stay, and the others have their places between them.
  have hends := objectAt?_distribute_outermost hfloors horder hmiddle
  have hin := isIn_of_mem_order horder
  have hmoved := aboveFloors_of_mem_middle hfloors horder
  rw [distribute_eq_placeWithGap horder hmiddle] at hends ⊢
  generalize hgap : axis.evenGap (first :: (middle ++ [last])) first last = gap at hends ⊢
  have hchain := isChain_placeWithGap hmoved (hgap ▸ axis.leading_last first last middle)
  -- Those between slide to where they are placed, and the chain of gaps runs through these places.
  have hslid : List.Forall₂ (fun s u => u.place = s.place ∧ s.object.SlidAlong axis u.object)
      middle (placeWithGap axis gap (axis.trailing first.object.displayBox)
        (middle.map Selected.withBox)) := by
    refine (forall₂_placeWithGap hmoved).imp fun s u => ?_
    rintro ⟨hplace, distance, hobject⟩
    exact ⟨hplace, hobject ▸ s.object.slidAlong_slideAlong axis distance⟩
  have hplaced := forall₂_objectAt?_replaceObjects (fun s hs => hin s (by simp [hs]))
    (places_middle horder).1 hslid
  exact ⟨gap, _, .cons ⟨hends first (.inl rfl), .refl axis _⟩
    (List.rel_append hplaced (.cons ⟨hends last (.inr rfl), .refl axis _⟩ .nil)), hchain⟩

end Distributing

/-- **Distribution gives equal gaps everywhere.** Let all controls be at the floors of the geometry,
and let the selection resolve to at least three of them. They are taken by their leading edges, and
in the order of the selection where these are the same. A distribution leaves the first and the last
where they are; those between them slide along the axis, and nothing else changes. Afterwards the
distance from where one ends to where the next one begins is the same everywhere, the last pair
included; it may be negative. -/
theorem distribute_even {bands : List (Band ℚ)} (hfloors : ∀ c ∈ allObjects bands, c.AboveFloors)
    {selection : List ObjectRef} (hthree : 3 ≤ (resolve bands selection).length) (axis : Axis) :
    let found := resolve bands selection
    let order := axis.order found
    let after := distribute bands selection axis
    (order.Perm found ∧
      order.Pairwise (fun s t =>
        axis.leading s.object.displayBox ≤ axis.leading t.object.displayBox) ∧
      ∀ tied : List (Selected ℚ), tied.Sublist found →
        tied.Pairwise (fun s t =>
          axis.leading s.object.displayBox = axis.leading t.object.displayBox) →
        tied.Sublist order) ∧
    (∀ s, s ∈ order.head? ∨ s ∈ order.getLast? →
      objectAt? after s.bandIndex s.objectIndex = some s.object) ∧
    ChangedOnlyAt (Control.SlidAlong axis) (order.tail.dropLast.map Selected.place) bands after ∧
    ∃ (gap : ℚ) (placed : List (Control ℚ)),
      List.Forall₂ (fun s c => objectAt? after s.bandIndex s.objectIndex = some c ∧
        s.object.SlidAlong axis c) order placed ∧
      placed.IsChain fun c d => axis.gapBetween c d = gap := by
  intro found order after
  have hspec := axis.order_stable found
  -- Of three controls there is one between the outermost two.
  obtain ⟨first, middle, last, horder, hmiddle⟩ :
      ∃ first middle last, order = first :: (middle ++ [last]) ∧ middle ≠ [] :=
    exists_between (hspec.1.length_eq ▸ hthree)
  refine ⟨hspec, fun s hs => ?_, ?_, ?_⟩
  · -- The outermost two.
    refine objectAt?_distribute_outermost hfloors horder hmiddle s ?_
    have hlast : (first :: (middle ++ [last])).getLast? = some last := by
      rw [← List.cons_append, List.getLast?_concat]
    rw [horder, hlast] at hs
    simpa [eq_comm] using hs
  · rw [horder, List.tail_cons, List.dropLast_concat]
    exact distribute_slides hfloors horder hmiddle
  · -- The gaps.
    rw [horder]
    exact exists_distributed hfloors horder hmiddle

private def narrowBox : Control ℚ :=
  (Control.ofContent "narrow" ⟨60, 8, 20, 20⟩ (.image "seal.png")).withBorder (.solid 2)

/-- A line that is drawn from right to left. -/
private def leftwardRule : Control ℚ := .ofLine "rule" (.thin 40 30 20 30)

private def wideBox : Control ℚ := .ofContent "wide" ⟨20, 70, 30, 20⟩ (.field "total" .general "")

private def farBox : Control ℚ := .ofContent "far" ⟨120, 75, 25, 20⟩ (.image "stamp.png")

private def uneven : List (Band ℚ) :=
  [{ Band.ofHeight "h" "Header" .header 0 60 with objects := [narrowBox, leftwardRule] },
    { Band.ofHeight "d" "Detail" .detail 60 40 with objects := [wideBox, farBox] }]

/-- In neither the order of the bands nor that from left to right. -/
private def farFirst : List ObjectRef :=
  [⟨"d", "far"⟩, ⟨"d", "wide"⟩, ⟨"h", "rule"⟩, ⟨"h", "narrow"⟩]

/-- The two that begin at 20 are in the order of the selection, so the wide one stays. -/
theorem distribute_even_uneven :
    let after := distribute uneven farFirst .horizontal
    (∀ c ∈ allObjects uneven, c.AboveFloors) ∧
    3 ≤ (resolve uneven farFirst).length ∧
    Axis.order .horizontal (resolve uneven farFirst) =
      [⟨1, 0, wideBox⟩, ⟨0, 1, leftwardRule⟩, ⟨0, 0, narrowBox⟩, ⟨1, 1, farBox⟩] ∧
    objectAt? after 1 0 = some wideBox ∧ objectAt? after 1 1 = some farBox ∧
    ∃ gap rule narrow, objectAt? after 0 1 = some rule ∧ objectAt? after 0 0 = some narrow ∧
      [wideBox, rule, narrow, farBox].IsChain fun c d => Axis.gapBetween .horizontal c d = gap := by
  intro after
  have hfloors : ∀ c ∈ allObjects uneven, c.AboveFloors := by decide +kernel
  have hresolve : resolve uneven farFirst =
      [⟨1, 1, farBox⟩, ⟨1, 0, wideBox⟩, ⟨0, 1, leftwardRule⟩, ⟨0, 0, narrowBox⟩] := rfl
  -- The left edges decide the order; the two that begin at 20 keep the order of the selection.
  have hfar : Axis.leading .horizontal farBox.displayBox = 120 := by decide +kernel
  have hwide : Axis.leading .horizontal wideBox.displayBox = 20 := by decide +kernel
  have hrule : Axis.leading .horizontal leftwardRule.displayBox = 20 := by decide +kernel
  have hnarrow : Axis.leading .horizontal narrowBox.displayBox = 60 := by decide +kernel
  have horder : Axis.order .horizontal (resolve uneven farFirst) =
      [⟨1, 0, wideBox⟩, ⟨0, 1, leftwardRule⟩, ⟨0, 0, narrowBox⟩, ⟨1, 1, farBox⟩] := by
    rw [hresolve, Axis.order]
    norm_num [List.mergeSort, List.merge, Coordinate.precedes, hfar, hwide, hrule, hnarrow]
  have hthree : 3 ≤ (resolve uneven farFirst).length := by rw [hresolve]; decide
  obtain ⟨-, hends, -, gap, placed, hplaced, hchain⟩ :=
    distribute_even hfloors hthree .horizontal
  rw [horder] at hends hplaced
  -- There are four places, and the controls at the outermost two are known.
  obtain _ | ⟨⟨hwideAt, -⟩, _ | ⟨⟨hruleAt, -⟩, _ | ⟨⟨hnarrowAt, -⟩, _ | ⟨⟨hfarAt, -⟩, _ | _⟩⟩⟩⟩ :=
    hplaced
  have hfirst : objectAt? after 1 0 = some wideBox := hends ⟨1, 0, wideBox⟩ (.inl rfl)
  have hlast : objectAt? after 1 1 = some farBox := hends ⟨1, 1, farBox⟩ (.inr rfl)
  obtain rfl := Option.some.inj (hwideAt.symm.trans hfirst)
  obtain rfl := Option.some.inj (hfarAt.symm.trans hlast)
  exact ⟨hfloors, hthree, horder, hfirst, hlast, gap, _, _, hruleAt, hnarrowAt, hchain⟩

end BandedReport
