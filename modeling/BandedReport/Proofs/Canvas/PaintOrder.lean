import Mathlib.Data.List.InsertIdx
import BandedReport.Proofs.Canvas.Floors
import BandedReport.Proofs.Sorting

/-!
# Moves in the stacking order

A control is moved by taking its identifier out of the list of all identifiers, topmost first, and
putting it back at another place; then every control gets a place from its position in that list.
The places are observed through a sort again. With distinct identifiers the sort gives the list back
from which the places were made, so a move in the stacking order is a move in a list.

* `Band.stackingIds` is the list of identifiers, topmost first;
* `stackingIds_assignDense` says that dense places show the order they were made from;
* `Band.Restacks` says what a move leaves alone, and `stacking_moves` what the moves are.
-/

namespace BandedReport

/-! ## §1 The order of a band -/

section Order

variable {κ : Type}

/-- Topmost first is sorted by the place with its sign changed. -/
theorem paintOrder_eq (band : Band κ) :
    paintOrder band = band.objects.mergeSort fun c d => -c.zIndex ≤ -d.zIndex := by
  simp only [paintOrder, Int.neg_le_neg_iff]

theorem pairwise_paintOrder (band : Band κ) :
    (paintOrder band).Pairwise fun c d => d.zIndex ≤ c.zIndex := by
  have hsorted := pairwise_mergeSort_key (fun c : Control κ => -c.zIndex) band.objects
  simp only [Int.neg_le_neg_iff] at hsorted
  exact hsorted

namespace Band

/-- The identifiers of the controls of a band. -/
def ids (band : Band κ) : List String := band.objects.map (·.id)

/-- The identifiers of the controls of a band, topmost first. -/
def stackingIds (band : Band κ) : List String := (paintOrder band).map (·.id)

theorem perm_stackingIds (band : Band κ) : band.stackingIds.Perm band.ids :=
  (List.mergeSort_perm _ _).map _

/-- A control is found in the stacking order where its identifier is. -/
theorem findIdx?_paintOrder (band : Band κ) (id : String) :
    (paintOrder band).findIdx? (·.id == id) = band.stackingIds.findIdx? (· == id) := by
  rw [stackingIds, List.findIdx?_map]
  rfl

end Band

end Order

/-! ## §2 Positions in a list -/

theorem findIdx?_of_mem {order : List String} {id : String} (hid : id ∈ order) :
    order.findIdx? (· == id) = some (order.idxOf id) :=
  List.findIdx?_eq_some_iff_findIdx_eq.mpr ⟨List.idxOf_lt_length_iff.mpr hid, rfl⟩

theorem findIdx?_of_notMem {order : List String} {id : String} (hid : id ∉ order) :
    order.findIdx? (· == id) = none :=
  List.findIdx?_eq_none_iff.mpr fun _ hother => beq_false_of_ne fun heq => hid (heq ▸ hother)

/-- In a list without repetition every member comes at its own position. -/
theorem map_idxOf {order : List String} (hnodup : order.Nodup) :
    order.map (order.idxOf ·) = List.range order.length := by
  apply List.ext_getElem
  · simp
  · intro i hi _
    rw [List.getElem_map, List.getElem_range]
    exact hnodup.idxOf_getElem i (by simpa using hi)

theorem pairwise_idxOf {order : List String} (hnodup : order.Nodup) :
    order.Pairwise fun x y => order.idxOf x ≤ order.idxOf y := by
  rw [← List.pairwise_map, map_idxOf hnodup]
  exact List.pairwise_le_range

/-- An identifier that is taken out and put back somewhere is in the list as before. -/
theorem perm_insertIdx_erase {order : List String} {id : String} (hid : id ∈ order) {place : Nat}
    (hplace : place ≤ (order.erase id).length) :
    ((order.erase id).insertIdx place id).Perm order :=
  (List.perm_insertIdx id _ hplace).trans (List.perm_cons_erase hid).symm

/-! ## §3 Dense places -/

section Dense

variable {κ : Type} [Coordinate κ] {band : Band κ} {order : List String}

theorem ids_assignDense (band : Band κ) (order : List String) :
    (assignDense band order).ids = band.ids :=
  congrArg Prod.snd (assignDense_settles band order).1

/-- The place of a control is counted from the end of the order. -/
theorem zIndex_of_mem_assignDense (hids : ∀ id ∈ band.ids, id ∈ order) {c : Control κ}
    (hc : c ∈ (assignDense band order).objects) :
    order.idxOf c.id < order.length ∧ c.zIndex = (order.length : Int) - order.idxOf c.id := by
  obtain ⟨old, hold, rfl⟩ := List.mem_map.mp hc
  have hmem : old.id ∈ order := hids _ (List.mem_map_of_mem hold)
  have hlt : order.idxOf old.id < order.length := List.idxOf_lt_length_iff.mpr hmem
  rw [findIdx?_of_mem hmem]
  refine ⟨hlt, ?_⟩
  -- The lowest place is one, so the floor of places changes nothing.
  show max ((order.length : Int) - order.idxOf old.id) 1 = order.length - order.idxOf old.id
  omega

/-- Dense places show the order from which they were made. -/
theorem stackingIds_assignDense (hnodup : band.ids.Nodup) (horder : order.Perm band.ids) :
    (assignDense band order).stackingIds = order := by
  -- In front of `n` others stands what is `n` places from the end of the order.
  have hplace := fun c (hc : c ∈ (assignDense band order).objects) =>
    zIndex_of_mem_assignDense (fun _ hid => horder.mem_iff.mpr hid) hc
  have hperm : (assignDense band order).stackingIds.Perm order := by
    refine (assignDense band order).perm_stackingIds.trans ?_
    rw [ids_assignDense]
    exact horder.symm
  -- Both lists are sorted by the position in the order, and there is only one such list.
  have hsorted : (assignDense band order).stackingIds.Pairwise
      fun x y => order.idxOf x ≤ order.idxOf y := by
    refine List.pairwise_map.mpr ((pairwise_paintOrder _).imp_of_mem fun {c d} hc hd hle => ?_)
    obtain ⟨hc', hzc⟩ := hplace c (List.mem_mergeSort.mp hc)
    obtain ⟨hd', hzd⟩ := hplace d (List.mem_mergeSort.mp hd)
    omega
  -- Two controls of one position are the same.
  refine hperm.eq_of_pairwise (fun x y hx hy hxy hyx => ?_) hsorted
    (pairwise_idxOf (horder.nodup_iff.mpr hnodup))
  exact (List.idxOf_inj (hperm.mem_iff.mp hx)).mp (le_antisymm hxy hyx)

/-- Dense places are the numbers from one to the number of controls. -/
theorem zIndices_assignDense (hnodup : band.ids.Nodup) (horder : order.Perm band.ids) :
    ((assignDense band order).objects.map (·.zIndex)).Perm
      ((List.range' 1 band.objects.length).map Int.ofNat) := by
  have hlength : order.length = band.objects.length := by
    rw [horder.length_eq, Band.ids, List.length_map]
  -- The z-indices depend on the identifiers alone, and both lists have the same ones.
  have hplaces : (assignDense band order).objects.map (·.zIndex) =
      band.ids.map fun id => (order.length : Int) - order.idxOf id := by
    rw [← ids_assignDense band order, Band.ids, List.map_map]
    exact List.map_congr_left fun c hc =>
      (zIndex_of_mem_assignDense (fun _ hid => horder.mem_iff.mpr hid) hc).2
  -- From the topmost control on, the places are counted down.
  have hdown : order.map (fun id => (order.length : Int) - order.idxOf id) =
      ((List.range' 1 order.length).map Int.ofNat).reverse := by
    rw [← List.map_reverse, List.reverse_range', List.map_map,
      ← map_idxOf (horder.nodup_iff.mpr hnodup), List.map_map]
    refine List.map_congr_left fun id hid => ?_
    have hlt : order.idxOf id < order.length := List.idxOf_lt_length_iff.mpr hid
    show (order.length : Int) - order.idxOf id =
      ((1 + order.length - 1 - order.idxOf id : Nat) : Int)
    omega
  rw [hplaces, ← hlength]
  refine (horder.symm.map _).trans ?_
  rw [hdown]
  exact List.reverse_perm _

/-- A control of the band is moved by moving its identifier. -/
theorem moveInOrder_eq {id : String} (hid : id ∈ band.ids) (place : Nat → Nat) :
    let others := band.stackingIds.erase id
    moveInOrder band id place =
      assignDense band (others.insertIdx (min (place others.length) others.length) id) := by
  have hmem : id ∈ band.stackingIds := band.perm_stackingIds.mem_iff.mpr hid
  have hfound := findIdx?_of_mem hmem
  rw [Band.stackingIds] at hfound
  simp only [moveInOrder, hfound, List.eraseIdx_idxOf_eq_erase]
  rfl

/-- An identifier that is not in the band moves nothing. -/
theorem moveInOrder_of_notMem {id : String} (hid : id ∉ band.ids) (place : Nat → Nat) :
    moveInOrder band id place = band := by
  have hmissing := findIdx?_of_notMem (mt band.perm_stackingIds.mem_iff.mp hid)
  rw [Band.stackingIds] at hmissing
  simp only [moveInOrder, hmissing]

end Dense

/-! ## §4 Moves -/

/-- The second band is the first with its controls stacked in an order of their identifiers: the
places are dense, the controls stand in the array as they did, and those that are at the floors or
above have changed in nothing but their places. -/
structure Band.Restacks (band after : Band Float) (order : List String) : Prop where
  stackingIds : after.stackingIds = order
  zIndices : (after.objects.map (·.zIndex)).Perm
    ((List.range' 1 band.objects.length).map Int.ofNat)
  rest : after = { band with objects := after.objects }
  objects : List.Forall₂
    (fun c c' => c'.id = c.id ∧ (c.Floored → c' = { c with zIndex := c'.zIndex }))
    band.objects after.objects

theorem restacks_assignDense {band : Band Float} {order : List String} (hnodup : band.ids.Nodup)
    (horder : order.Perm band.ids) : band.Restacks (assignDense band order) order := by
  refine ⟨stackingIds_assignDense hnodup horder, zIndices_assignDense hnodup horder, rfl, ?_⟩
  refine List.forall₂_map_right_iff.mpr (List.forall₂_same.mpr fun c _ => ?_)
  split
  · refine ⟨rfl, fun hfloored => ?_⟩
    -- Normalizing raises a place that is too low, and leaves the body as it is.
    unfold Control.normalize
    rw [hfloored.2.normalize_eq]
  · exact ⟨rfl, fun _ => rfl⟩

/-- Taking a control out of the stacking order and putting it back is the same move of its
identifier. -/
theorem restacks_moveInOrder {band : Band Float} {id : String} (hnodup : band.ids.Nodup)
    (hid : id ∈ band.ids) {place : Nat → Nat} {index : Nat}
    (hindex : min (place (band.stackingIds.erase id).length) (band.stackingIds.erase id).length =
      index) :
    band.Restacks (moveInOrder band id place)
      ((band.stackingIds.erase id).insertIdx index id) := by
  have hmem : id ∈ band.stackingIds := band.perm_stackingIds.mem_iff.mpr hid
  rw [moveInOrder_eq hid, hindex]
  exact restacks_assignDense hnodup
    ((perm_insertIdx_erase hmem (hindex ▸ Nat.min_le_right _ _)).trans band.perm_stackingIds)

/-- **Moves in the stacking order are moves in a list.** In a band with distinct identifiers,
dragging a control onto another takes it out of the stacking order and puts it back at the place
that the other had; bringing it to the front makes it the first, sending it to the back the last,
and the others keep their order. Afterwards the places are the numbers from one to the number of
controls; the array keeps its order, and controls at the floors or above have changed in nothing
but their places. An identifier that is not in the band leaves the band as it is. -/
theorem stacking_moves {band : Band Float} (hnodup : band.ids.Nodup) :
    let order := band.stackingIds
    (∀ a ∈ band.ids, ∀ b ∈ band.ids,
      band.Restacks (reorder band a b) ((order.erase a).insertIdx (order.idxOf b) a)) ∧
    (∀ a ∈ band.ids, band.Restacks (bringToFront band a) (a :: order.erase a)) ∧
    (∀ a ∈ band.ids, band.Restacks (sendToBack band a) (order.erase a ++ [a])) ∧
    (∀ a b, a ∉ band.ids ∨ b ∉ band.ids → reorder band a b = band) ∧
    ∀ a, a ∉ band.ids → bringToFront band a = band ∧ sendToBack band a = band := by
  intro order
  have hmem : ∀ {id}, id ∈ order ↔ id ∈ band.ids := band.perm_stackingIds.mem_iff
  refine ⟨fun a ha b hb => ?_, fun a ha => ?_, fun a ha => ?_, fun a b hab => ?_,
    fun a ha => ⟨moveInOrder_of_notMem ha _, moveInOrder_of_notMem ha _⟩⟩
  · have hlt : order.idxOf b < order.length := List.idxOf_lt_length_iff.mpr (hmem.mpr hb)
    -- The place of the other control is the place in the order.
    have hfound : order.findIdx? (· == b) = some (order.idxOf b) :=
      findIdx?_of_mem (hmem.mpr hb)
    have hreorder : reorder band a b = moveInOrder band a fun _ => order.idxOf b := by
      simp only [reorder, Band.findIdx?_paintOrder, order] at hfound ⊢
      rw [hfound]
    -- The place that the other had is still there when the control is out.
    have hlength : (order.erase a).length = order.length - 1 :=
      List.length_erase_of_mem (hmem.mpr ha)
    have hplace : min (order.idxOf b) (order.erase a).length = order.idxOf b := by omega
    rw [hreorder]
    exact restacks_moveInOrder hnodup ha hplace
  · -- The front is the place before all others.
    rw [← List.insertIdx_zero]
    exact restacks_moveInOrder hnodup ha (Nat.zero_min _)
  · -- The back is the place behind all others.
    rw [← List.insertIdx_length_self]
    exact restacks_moveInOrder hnodup ha (Nat.min_self _)
  · -- A reference that is not found changes nothing.
    by_cases hb : b ∈ band.ids
    · -- Then the dragged control is missing, wherever it should go.
      have ha : a ∉ band.ids := hab.resolve_right (not_not_intro hb)
      unfold reorder
      split
      · rfl
      · exact moveInOrder_of_notMem ha _
    · have hmissing : order.findIdx? (· == b) = none := findIdx?_of_notMem (mt hmem.mp hb)
      simp only [reorder, Band.findIdx?_paintOrder, order] at hmissing ⊢
      rw [hmissing]

private def shapeAt (id : String) (zIndex : Int) : Control Float :=
  { Control.ofContent id ⟨0, 0, 30, 30⟩ (.shape .ellipse none) with zIndex }

/-- Four shapes, two of them at one place. -/
private def fourShapes : Band Float :=
  { Band.ofHeight "d" "Detail" .detail 0 100 with
    objects := [shapeAt "a" 1, shapeAt "b" 5, shapeAt "c" 5, shapeAt "d" 2] }

/-- A shape that is dragged upwards comes to lie above the other, one that is dragged downwards
below it. -/
theorem stacking_moves_fourShapes :
    fourShapes.ids.Nodup ∧ fourShapes.stackingIds = ["b", "c", "d", "a"] ∧
    fourShapes.Restacks (reorder fourShapes "a" "c") ["b", "a", "c", "d"] ∧
    fourShapes.Restacks (reorder fourShapes "b" "d") ["c", "d", "b", "a"] ∧
    fourShapes.Restacks (bringToFront fourShapes "a") ["a", "b", "c", "d"] ∧
    fourShapes.Restacks (sendToBack fourShapes "b") ["c", "d", "a", "b"] ∧
    reorder fourShapes "a" "z" = fourShapes := by
  have hnodup : fourShapes.ids.Nodup := by decide
  have horder : fourShapes.stackingIds = ["b", "c", "d", "a"] := by
    simp [Band.stackingIds, paintOrder, List.mergeSort, List.MergeSort.Internal.splitInTwo,
      fourShapes, shapeAt, Control.ofContent]
  obtain ⟨hreorder, hfront, hback, hmissing, -⟩ := stacking_moves hnodup
  -- The three orders are read off the initial one.
  rw [horder] at hreorder hfront hback
  exact ⟨hnodup, horder, hreorder "a" (by decide) "c" (by decide),
    hreorder "b" (by decide) "d" (by decide), hfront "a" (by decide), hback "b" (by decide),
    hmissing "a" "z" (.inr (by decide))⟩

end BandedReport
