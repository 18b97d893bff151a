import BandedReport.Proofs.Canvas.Floors
import BandedReport.Proofs.Sorting

/-!
# What an operation on a selection leaves alone

Aligning, distributing, equalizing and moving write controls back by their indices. They touch the
controls that the selection resolves to and no other, and of those they touch nothing but the
position or the size.

* `ChangedOnlyAt` says that bands were changed at some places only, and how;
* `places_resolve` says what the places of a selection are, whatever is stale or repeated in it;
* `Control.Moved` and `Control.Resized` are the changes;
* `selection_changedOnlyAt` says which operation changes which places in which way.
-/

namespace BandedReport

/-! ## §1 Changes at places -/

section Places

variable {κ : Type}

/-- The index of the band and the index of the control in it. -/
def Selected.place (s : Selected κ) : Nat × Nat := (s.bandIndex, s.objectIndex)

/-- The index of the band and the index in it at which a control is put. -/
def Update.place (u : Update κ) : Nat × Nat := (u.bandIndex, u.objectIndex)

/-- The band without its controls. -/
def Band.emptied (b : Band κ) : Band κ := { b with objects := [] }

/-- Bands that came about by changing the controls at some places. -/
structure ChangedOnlyAt (change : Control κ → Control κ → Prop) (places : List (Nat × Nat))
    (bands after : List (Band κ)) : Prop where
  /-- The same bands, in the same order, which differ in their controls at most. -/
  emptied_eq : after.map Band.emptied = bands.map Band.emptied
  /-- The same controls, in the same order. -/
  outline_eq : outline after = outline bands
  changed : ∀ place ∈ places, ∃ c c', objectAt? bands place.1 place.2 = some c ∧
    objectAt? after place.1 place.2 = some c' ∧ change c c'
  unchanged : ∀ place, place ∉ places →
    objectAt? after place.1 place.2 = objectAt? bands place.1 place.2

theorem objectAt?_replaceObject (bands : List (Band κ)) (u : Update κ) (i j : Nat) :
    objectAt? (replaceObject bands u) i j =
      if (u.bandIndex, u.objectIndex) = (i, j) then (objectAt? bands i j).map fun _ => u.object
      else objectAt? bands i j := by
  simp only [objectAt?, replaceObject, List.getElem?_modify, Prod.mk.injEq]
  cases bands[i]? with
  | none => simp
  | some band =>
    by_cases hi : u.bandIndex = i <;> by_cases hj : u.objectIndex = j <;>
      simp [hi, hj, List.getElem?_set]
    -- What is set at an index is there exactly if something was.
    by_cases hlength : j < band.objects.length <;> simp [hlength]

theorem objectAt?_replaceObjects_of_not_mem {bands : List (Band κ)} {updates : List (Update κ)}
    {i j : Nat} (h : ∀ u ∈ updates, (u.bandIndex, u.objectIndex) ≠ (i, j)) :
    objectAt? (replaceObjects bands updates) i j = objectAt? bands i j := by
  induction updates generalizing bands with
  | nil => rfl
  | cons u us ih =>
    obtain ⟨hu, hus⟩ := List.forall_mem_cons.mp h
    show objectAt? (replaceObjects (replaceObject bands u) us) i j = _
    rw [ih hus, objectAt?_replaceObject, if_neg hu]

/-- At a place where a control was there is the same one, or one that an update put there. -/
theorem objectAt?_replaceObjects {bands : List (Band κ)} {updates : List (Update κ)} {i j : Nat}
    {c : Control κ} (h : objectAt? bands i j = some c) :
    ∃ c', objectAt? (replaceObjects bands updates) i j = some c' ∧
      (c' = c ∨ ∃ u ∈ updates, (u.bandIndex, u.objectIndex) = (i, j) ∧ u.object = c') := by
  induction updates generalizing bands c with
  | nil => exact ⟨c, h, .inl rfl⟩
  | cons u us ih =>
    have hstep := objectAt?_replaceObject bands u i j
    rw [h] at hstep
    split at hstep
    · -- The update put its control there; later ones may follow.
      rename_i hplace
      obtain ⟨c', hc', rfl | ⟨v, hv, hat⟩⟩ := ih hstep
      · exact ⟨_, hc', .inr ⟨u, List.mem_cons_self, hplace, rfl⟩⟩
      · exact ⟨c', hc', .inr ⟨v, List.mem_cons_of_mem _ hv, hat⟩⟩
    · -- The update belongs elsewhere, so the control is still there for the later ones.
      obtain ⟨c', hc', hsame | ⟨v, hv, hat⟩⟩ := ih hstep
      · exact ⟨c', hc', .inl hsame⟩
      · exact ⟨c', hc', .inr ⟨v, List.mem_cons_of_mem _ hv, hat⟩⟩

/-- What the only update of a place puts there stands there in the end. -/
theorem objectAt?_replaceObjects_of_mem {bands : List (Band κ)} {updates : List (Update κ)}
    (hplaces : (updates.map Update.place).Nodup) {u : Update κ} (hu : u ∈ updates) {c : Control κ}
    (hc : objectAt? bands u.bandIndex u.objectIndex = some c) :
    objectAt? (replaceObjects bands updates) u.bandIndex u.objectIndex = some u.object := by
  induction updates generalizing bands c with
  | nil => cases hu
  | cons v vs ih =>
    obtain ⟨hv, hvs⟩ := List.nodup_cons.mp hplaces
    have hstep := objectAt?_replaceObject bands v u.bandIndex u.objectIndex
    rw [hc] at hstep
    rcases List.mem_cons.mp hu with rfl | hu
    · -- No later update comes to this place.
      have hlater : ∀ w ∈ vs, (w.bandIndex, w.objectIndex) ≠ (u.bandIndex, u.objectIndex) :=
        fun w hw hplace => hv (List.mem_map.mpr ⟨w, hw, hplace⟩)
      exact (objectAt?_replaceObjects_of_not_mem hlater).trans (hstep.trans (if_pos rfl))
    · -- The first update belongs elsewhere, for the places are distinct.
      rw [if_neg fun hplace => hv (List.mem_map.mpr ⟨u, hu, hplace.symm⟩)] at hstep
      exact ih hvs hu hstep

theorem replaceObject_eq_self {bands : List (Band κ)} {u : Update κ}
    (h : objectAt? bands u.bandIndex u.objectIndex = some u.object) :
    replaceObject bands u = bands := by
  obtain ⟨band, hband, hobject⟩ := Option.bind_eq_some_iff.mp h
  apply List.ext_getElem?
  intro i
  rw [replaceObject, List.getElem?_modify]
  -- The band of the update gets the control that it has; the others are not touched.
  split
  · rename_i hi
    obtain ⟨hindex, hat⟩ := List.getElem?_eq_some_iff.mp hobject
    have hset : band.objects.set u.objectIndex u.object = band.objects := by
      rw [← hat]
      exact List.set_getElem_self hindex
    rw [← hi, hband]
    exact congrArg (fun objects => some { band with objects }) hset
  · simp

/-- Controls that take their own places change nothing. -/
theorem replaceObjects_eq_self {bands : List (Band κ)} {updates : List (Update κ)}
    (h : ∀ u ∈ updates, objectAt? bands u.bandIndex u.objectIndex = some u.object) :
    replaceObjects bands updates = bands := by
  induction updates with
  | nil => rfl
  | cons u us ih =>
    obtain ⟨hu, hus⟩ := List.forall_mem_cons.mp h
    show replaceObjects (replaceObject bands u) us = bands
    rw [replaceObject_eq_self hu]
    exact ih hus

theorem emptied_replaceObject (bands : List (Band κ)) (u : Update κ) :
    (replaceObject bands u).map Band.emptied = bands.map Band.emptied := by
  apply List.ext_getElem?
  intro i
  simp only [replaceObject, List.getElem?_map, List.getElem?_modify]
  cases bands[i]? with
  | none => rfl
  | some band => simp only [Option.map_some]; split <;> rfl

theorem emptied_replaceObjects (bands : List (Band κ)) (updates : List (Update κ)) :
    (replaceObjects bands updates).map Band.emptied = bands.map Band.emptied := by
  induction updates generalizing bands with
  | nil => rfl
  | cons u us ih => exact (ih _).trans (emptied_replaceObject bands u)

/-- Updates made from controls that were found change the places of these controls only. -/
theorem changedOnlyAt_replaceObjects {change : Control κ → Control κ → Prop}
    (hrefl : ∀ c, change c c) (hid : ∀ c c', change c c' → c'.id = c.id)
    {bands : List (Band κ)} {found : List (Selected κ)} (hfound : ∀ s ∈ found, s.IsIn bands)
    {updates : List (Update κ)}
    (hupdates : ∀ u ∈ updates, ∃ s ∈ found,
      (u.bandIndex, u.objectIndex) = s.place ∧ change s.object u.object) :
    ChangedOnlyAt change (found.map Selected.place) bands (replaceObjects bands updates) where
  emptied_eq := emptied_replaceObjects bands updates
  outline_eq := by
    -- The identifier at the place of an update is that of the control it was made from.
    apply outline_replaceObjects
    intro u hu
    obtain ⟨s, hs, hplace, hchange⟩ := hupdates u hu
    obtain ⟨hb, ho⟩ := Prod.mk.inj hplace
    rw [hb, ho, hfound s hs, Option.map_some, hid _ _ hchange]
  changed := by
    intro place hplace
    obtain ⟨s, hs, rfl⟩ := List.mem_map.mp hplace
    have hat : objectAt? bands s.place.1 s.place.2 = some s.object := hfound s hs
    obtain ⟨c', hc', rfl | ⟨u, hu, huplace, rfl⟩⟩ := objectAt?_replaceObjects hat
    · exact ⟨_, _, hat, hc', hrefl _⟩
    · -- What stands at the place of the update is what the update was made from.
      obtain ⟨t, ht, htplace, hchange⟩ := hupdates u hu
      have hst : t.object = s.object := by
        have htat : objectAt? bands t.place.1 t.place.2 = some t.object := hfound t ht
        rw [← htplace, huplace] at htat
        exact Option.some.inj (htat.symm.trans hat)
      exact ⟨_, _, hat, hc', hst ▸ hchange⟩
  unchanged := by
    intro place hplace
    apply objectAt?_replaceObjects_of_not_mem
    intro u hu huplace
    -- An update at the place would make it a place of the selection.
    obtain ⟨s, hs, hat, -⟩ := hupdates u hu
    exact hplace (List.mem_map.mpr ⟨s, hs, hat.symm.trans huplace⟩)

/-! ## §2 The places of a selection -/

/-- A place is found by identifiers alone. -/
theorem locate_eq (bands : List (Band κ)) (target : ObjectRef) :
    locate bands target = do
      let bandIndex ← (outline bands).findIdx? (·.1 == target.bandId)
      let band ← (outline bands)[bandIndex]?
      let objectIndex ← band.2.findIdx? (· == target.objectId)
      return (bandIndex, objectIndex) := by
  unfold locate outline
  rw [List.findIdx?_map]
  refine congrArg _ (funext fun i => ?_)
  rw [List.getElem?_map]
  -- Both sides look into the band found first; an outline has its identifiers alone.
  cases bands[i]? with
  | none => rfl
  | some band =>
    show _ = ((band.objects.map (·.id)).findIdx? (· == target.objectId)).bind _
    rw [List.findIdx?_map]
    rfl

theorem exists_objectAt?_of_locate {bands : List (Band κ)} {target : ObjectRef}
    {place : Nat × Nat} (h : locate bands target = some place) :
    ∃ c, objectAt? bands place.1 place.2 = some c := by
  unfold locate at h
  obtain ⟨i, -, h⟩ := Option.bind_eq_some_iff.mp h
  obtain ⟨band, hband, h⟩ := Option.bind_eq_some_iff.mp h
  obtain ⟨j, hj, h⟩ := Option.bind_eq_some_iff.mp h
  cases h
  obtain ⟨hlength, -⟩ := List.findIdx?_eq_some_iff_findIdx_eq.mp hj
  exact ⟨band.objects[j], by rw [objectAt?, hband, Option.bind_some, List.getElem?_eq_getElem]⟩

private theorem eraseDups_append_cons {α : Type} [BEq α] [LawfulBEq α] {l : List α} {a : α}
    (ha : a ∈ l) (rest : List α) : (l ++ a :: rest).eraseDups = (l ++ rest).eraseDups := by
  have hremoved : (a :: rest).removeAll l = rest.removeAll l := by
    simp [List.removeAll, ha]
  rw [List.eraseDups_append, List.eraseDups_append, hremoved]

private theorem eraseDups_concat {α : Type} [BEq α] [LawfulBEq α] {l : List α}
    (hl : l.eraseDups = l) {a : α} (ha : a ∉ l) : (l ++ [a]).eraseDups = l ++ [a] := by
  have hkept : [a].removeAll l = [a] := by simp [List.removeAll, ha]
  rw [List.eraseDups_append, hl, hkept]
  rfl

theorem places_resolveOnto {bands : List (Band κ)} {found : List (Selected κ)}
    (hfound : (found.map Selected.place).eraseDups = found.map Selected.place)
    (targets : List ObjectRef) :
    (resolveOnto bands found targets).map Selected.place =
      (found.map Selected.place ++ targets.filterMap (locate bands)).eraseDups := by
  induction targets generalizing found with
  | nil => rw [resolveOnto, List.filterMap_nil, List.append_nil, hfound]
  | cons target rest ih =>
    unfold resolveOnto
    cases hlocate : locate bands target with
    | none => rw [List.filterMap_cons_none hlocate]; exact ih hfound
    | some place =>
      rw [List.filterMap_cons_some hlocate]
      obtain ⟨c, hc⟩ := exists_objectAt?_of_locate hlocate
      -- A place was found before just when a selected control stands there.
      have hany : (found.any fun s => s.bandIndex == place.1 && s.objectIndex == place.2) = true ↔
          place ∈ found.map Selected.place := by
        simp [Selected.place, Prod.ext_iff]
      dsimp only
      split
      · -- A place that was found before is passed over.
        rename_i hold
        rw [eraseDups_append_cons (hany.mp hold)]
        exact ih hfound
      · rename_i hnew
        rw [hc]
        -- A place that is new comes last.
        have hplaces : (found ++ [(⟨place.1, place.2, c⟩ : Selected κ)]).map Selected.place =
            found.map Selected.place ++ [place] := by
          rw [List.map_append]
          rfl
        have hnext := eraseDups_concat hfound (mt hany.mpr hnew)
        rw [← hplaces] at hnext
        rw [List.append_cons, ← hplaces]
        exact ih hnext

/-- The places of a selection: those of the references that are not stale, each once, where it is
first referred to. -/
theorem places_resolve (bands : List (Band κ)) (selection : List ObjectRef) :
    (resolve bands selection).map Selected.place =
      (selection.filterMap (locate bands)).eraseDups :=
  places_resolveOnto rfl selection

theorem nodup_places_resolve (bands : List (Band κ)) (selection : List ObjectRef) :
    ((resolve bands selection).map Selected.place).Nodup := by
  rw [places_resolve]
  exact nodup_eraseDups _

/-- A selection refers to the same places as long as identifiers stay where they are. -/
theorem places_resolve_of_outline_eq {bands after : List (Band κ)}
    (h : outline after = outline bands) (selection : List ObjectRef) :
    (resolve after selection).map Selected.place =
      (resolve bands selection).map Selected.place := by
  have hlocate : locate after = locate bands := by
    funext target
    rw [locate_eq, locate_eq, h]
  rw [places_resolve, places_resolve, hlocate]

end Places

/-! ## §3 Changes of position and of size -/

section Changes

variable {κ : Type}

/-- The same box with another size, or the same line with another second endpoint. -/
inductive Body.Resized : Body κ → Body κ → Prop
  | box (f : Frame κ) (b : Border κ) (content : BoxContent) (width height : κ) :
    Resized (.box f b content) (.box { f with width, height } b content)
  | line (l : Line κ) (x2 y2 : κ) : Resized (.line l) (.line { l with x2, y2 })

/-- The second control differs from the first in its size at most. -/
def Control.Resized (c c' : Control κ) : Prop :=
  ∃ body, c.body.Resized body ∧ c' = { c with body }

theorem Control.Resized.refl (c : Control κ) : c.Resized c := by
  refine ⟨c.body, ?_, rfl⟩
  cases c.body with
  | box f b content => exact .box f b content f.width f.height
  | line l => exact .line l l.x2 l.y2

theorem Control.Resized.id_eq {c c' : Control κ} (h : c.Resized c') : c'.id = c.id := by
  obtain ⟨body, -, rfl⟩ := h
  rfl

variable [Coordinate κ]

/-- The same box or line in another position. Both endpoints of a line go the same way. -/
inductive Body.Moved : Body κ → Body κ → Prop
  | still (b : Body κ) : Moved b b
  | box (f : Frame κ) (b : Border κ) (content : BoxContent) (x y : κ) :
    Moved (.box f b content) (.box { f with x, y } b content)
  | line (l : Line κ) (dx dy : κ) :
    Moved (.line l)
      (.line { l with x1 := l.x1 + dx, x2 := l.x2 + dx, y1 := l.y1 + dy, y2 := l.y2 + dy })

/-- The second control differs from the first in its position at most. -/
def Control.Moved (c c' : Control κ) : Prop := ∃ body, c.body.Moved body ∧ c' = { c with body }

theorem Control.Moved.refl (c : Control κ) : c.Moved c := ⟨c.body, .still c.body, rfl⟩

theorem Control.Moved.id_eq {c c' : Control κ} (h : c.Moved c') : c'.id = c.id := by
  obtain ⟨body, -, rfl⟩ := h
  rfl

end Changes

/-! ## §4 Changes of controls at the floors -/

namespace Body.Floored

/-- Normalizing after a shift has nothing to correct but the position. -/
theorem moved_normalize_shift {b : Body Float} (h : b.Floored) (dx dy : Float) :
    b.Moved (b.shift dx dy).normalize := by
  cases b with
  | box f border content =>
    obtain ⟨-, -, hwidth, hheight, hborder⟩ := h
    simp only [Body.shift, Body.normalize, flooredSize_eq_self hwidth,
      flooredSize_eq_self hheight, flooredWidth_eq_self hborder]
    exact .box f border content _ _
  | line l =>
    have hstroke : AtLeast 0 l.strokeWidth := h
    simp only [Body.shift, Body.normalize, flooredWidth_eq_self hstroke]
    exact .line l dx dy

theorem resized_normalize_box {f : Frame Float} {b : Border Float} {content : BoxContent}
    (h : (Body.box f b content).Floored) (width height : Float) :
    (Body.box f b content).Resized (Body.box { f with width, height } b content).normalize := by
  obtain ⟨hx, hy, -, -, hborder⟩ := h
  simp only [Body.normalize, finiteOr_eq_self hx, finiteOr_eq_self hy,
    flooredWidth_eq_self hborder]
  exact .box f b content _ _

theorem resized_normalize_line {l : Line Float} (h : (Body.line l).Floored) (length : Float) :
    (Body.line l).Resized (Body.line (l.withLength length)).normalize := by
  have hstroke : AtLeast 0 l.strokeWidth := h
  simp only [Body.normalize, Line.withLength, flooredWidth_eq_self hstroke]
  exact .line l _ _

end Body.Floored

namespace Control.Floored

/-- Normalizing a control with another body has only the body to correct. -/
theorem normalize_withBody {c : Control Float} (h : c.Floored) (body : Body Float) :
    Control.normalize { c with body } = { c with body := body.normalize } := by
  simp only [Control.normalize, Int.max_eq_left h.1]

/-- A shift of a control at the floors moves it, and does nothing else. -/
theorem moved_translate {c : Control Float} (h : c.Floored) (dx dy : Float) :
    c.Moved (c.translate dx dy) :=
  ⟨_, h.2.moved_normalize_shift dx dy, h.normalize_withBody _⟩

/-- A control at the floors that takes the size of another changes in nothing else. -/
theorem resized_withSizeOf? {c : Control Float} (h : c.Floored) {reference c' : Control Float}
    {d : SizeDimension} (hc' : c.withSizeOf? reference d = some c') : c.Resized c' := by
  have hbody := h.2
  unfold Control.withSizeOf? at hc'
  split at hc'
  · rename_i l hl
    rw [hl] at hbody
    obtain ⟨length, -, rfl⟩ := Option.map_eq_some_iff.mp hc'
    exact ⟨_, hl ▸ hbody.resized_normalize_line length, h.normalize_withBody _⟩
  · rename_i f border content hbox
    rw [hbox] at hbody
    cases hc'
    exact ⟨_, hbox ▸ hbody.resized_normalize_box _ _, h.normalize_withBody _⟩

end Control.Floored

/-! ## §5 The operations -/

section Operations

variable {κ : Type} [Coordinate κ]

/-- The selected controls in the order of their leading edges. -/
def Axis.order (axis : Axis) (found : List (Selected κ)) : List (Selected κ) :=
  found.mergeSort fun s t =>
    Coordinate.precedes (axis.leading s.object.displayBox) (axis.leading t.object.displayBox)

theorem mem_placeWithGap {axis : Axis} {gap edge : κ} {items : List (Selected κ × Rect κ)}
    {u : Update κ} (hu : u ∈ placeWithGap axis gap edge items) :
    ∃ item ∈ items, (u.bandIndex, u.objectIndex) = item.1.place ∧
      ∃ dx dy, u.object = item.1.object.translate dx dy := by
  induction items generalizing edge with
  | nil => cases hu
  | cons item rest ih =>
    rcases List.mem_cons.mp hu with rfl | hu
    · exact ⟨item, List.mem_cons_self, rfl, _, _, rfl⟩
    · obtain ⟨item', hitem', h⟩ := ih hu
      exact ⟨item', List.mem_cons_of_mem _ hitem', h⟩

/-- A distribution shifts the controls between the first and the last along the axis. -/
theorem distribute_eq (bands : List (Band κ)) (selection : List ObjectRef) (axis : Axis) :
    ∃ updates, distribute bands selection axis = replaceObjects bands updates ∧
      ∀ u ∈ updates, ∃ s ∈ (axis.order (resolve bands selection)).tail.dropLast,
        (u.bandIndex, u.objectIndex) = s.place ∧ ∃ dx dy, u.object = s.object.translate dx dy := by
  -- The boxes may be computed before or after sorting: they do not change the order.
  have hsorted := List.map_mergeSort (l := resolve bands selection)
    (r := fun s t => Coordinate.precedes (axis.leading s.object.displayBox)
      (axis.leading t.object.displayBox))
    (s := fun a b => Coordinate.precedes (axis.leading a.2) (axis.leading b.2))
    (f := fun s => (s, s.object.displayBox)) fun _ _ _ _ => rfl
  unfold distribute
  dsimp only
  split
  · rename_i first second third more hitems
    refine ⟨_, rfl, fun u hu => ?_⟩
    obtain ⟨item, hitem, hplace, hshift⟩ := mem_placeWithGap hu
    -- What is placed is what lies between the first and the last of the sorted selection.
    have hbetween : (axis.order (resolve bands selection)).tail.dropLast.map
        (fun s => (s, s.object.displayBox)) = second :: (third :: more).dropLast := by
      rw [List.map_dropLast, List.map_tail, Axis.order, hsorted, hitems]
      rfl
    rw [← hbetween] at hitem
    obtain ⟨s, hs, rfl⟩ := List.mem_map.mp hitem
    exact ⟨s, hs, hplace, hshift⟩
  · -- With fewer than three controls there is nothing to place.
    exact ⟨[], rfl, List.forall_mem_nil _⟩

theorem mem_alignmentDeltas {bands : List (Band κ)} {selection : List ObjectRef} {a : Alignment}
    {delta : Selected κ × κ × κ} (h : delta ∈ alignmentDeltas bands selection a) :
    delta.1 ∈ (resolve bands selection).tail := by
  unfold alignmentDeltas at h
  split at h
  · cases h
  · rename_i first rest hresolve
    obtain ⟨s, hs, rfl⟩ := List.mem_map.mp h
    rw [hresolve]
    exact hs

end Operations

theorem Selected.IsIn.mem_allObjects {κ : Type} {bands : List (Band κ)} {s : Selected κ}
    (hs : s.IsIn bands) : s.object ∈ allObjects bands := by
  obtain ⟨band, hband, hobject⟩ := Option.bind_eq_some_iff.mp hs
  exact BandedReport.mem_allObjects.mpr
    ⟨band, List.mem_of_getElem? hband, List.mem_of_getElem? hobject⟩

/-- Updates that shift controls at the floors move these controls and change nothing else. -/
theorem changedOnlyAt_shifts {bands : List (Band Float)} (hbands : AllFloored bands)
    {found : List (Selected Float)} (hfound : ∀ s ∈ found, s.IsIn bands)
    {updates : List (Update Float)}
    (hupdates : ∀ u ∈ updates, ∃ s ∈ found, (u.bandIndex, u.objectIndex) = s.place ∧
      ∃ dx dy, u.object = s.object.translate dx dy) :
    ChangedOnlyAt Control.Moved (found.map Selected.place) bands
      (replaceObjects bands updates) := by
  refine changedOnlyAt_replaceObjects Control.Moved.refl (fun _ _ => Control.Moved.id_eq) hfound ?_
  intro u hu
  obtain ⟨s, hs, hplace, dx, dy, hu⟩ := hupdates u hu
  refine ⟨s, hs, hplace, ?_⟩
  rw [hu]
  exact (hbands s.object (hfound s hs).mem_allObjects).moved_translate dx dy

/-! ## §6 Selections -/

section Spared

variable {α : Type} {l : List α}

private theorem head_notMem_tail (h : l.Nodup) : ∀ a ∈ l.head?, a ∉ l.tail := by
  cases l with
  | nil => simp
  | cons b bs => simpa using h.notMem

private theorem last_notMem_dropLast (h : l.Nodup) : ∀ a ∈ l.getLast?, a ∉ l.dropLast := by
  intro a ha
  obtain ⟨before, rfl⟩ := List.getLast?_eq_some_iff.mp ha
  rw [List.dropLast_concat]
  exact fun hmem => (List.nodup_append.mp h).2.2 a hmem a (List.mem_singleton_self a) rfl

/-- Neither end of a list without repetitions is between its ends. -/
private theorem end_notMem_between (h : l.Nodup) {a : α} (ha : a ∈ l.head? ∨ a ∈ l.getLast?) :
    a ∉ l.tail.dropLast := by
  rcases ha with ha | ha
  · exact fun hmem => head_notMem_tail h a ha (List.mem_of_mem_dropLast hmem)
  · rw [← List.tail_dropLast]
    exact fun hmem => last_notMem_dropLast h a ha (List.mem_of_mem_tail hmem)

end Spared

/-- The controls in the order of their leading edges are the selected ones. -/
theorem Axis.perm_order (axis : Axis) (found : List (Selected Float)) :
    (axis.order found).Perm found :=
  List.mergeSort_perm _ _

theorem Axis.pairwise_order (axis : Axis) (found : List (Selected Float)) :
    (axis.order found).Pairwise fun s t =>
      totalRank (axis.leading s.object.displayBox) ≤
        totalRank (axis.leading t.object.displayBox) :=
  pairwise_mergeSort_key (fun s => totalRank (axis.leading s.object.displayBox)) found

theorem align_changedOnlyAt {bands : List (Band Float)} (hbands : AllFloored bands)
    (selection : List ObjectRef) (a : Alignment) :
    ChangedOnlyAt Control.Moved ((resolve bands selection).tail.map Selected.place) bands
      (align bands selection a) := by
  refine changedOnlyAt_shifts hbands
    (fun s hs => isIn_of_mem_resolve (List.mem_of_mem_tail hs)) fun u hu => ?_
  obtain ⟨⟨s, dx, dy⟩, hs, rfl⟩ := List.mem_map.mp hu
  exact ⟨s, mem_alignmentDeltas hs, rfl, dx, dy, rfl⟩

theorem sameSize_changedOnlyAt {bands : List (Band Float)} (hbands : AllFloored bands)
    (selection : List ObjectRef) (d : SizeDimension) :
    ChangedOnlyAt Control.Resized ((resolve bands selection).tail.map Selected.place) bands
      (sameSize bands selection d) := by
  have hfound : ∀ s ∈ (resolve bands selection).tail, s.IsIn bands :=
    fun s hs => isIn_of_mem_resolve (List.mem_of_mem_tail hs)
  unfold sameSize
  split
  · -- Without a reference nothing is sized.
    rename_i hresolve
    exact changedOnlyAt_replaceObjects Control.Resized.refl (fun _ _ => Control.Resized.id_eq)
      hfound (List.forall_mem_nil _)
  · rename_i first rest hresolve
    rw [hresolve] at hfound ⊢
    refine changedOnlyAt_replaceObjects Control.Resized.refl (fun _ _ => Control.Resized.id_eq)
      hfound fun u hu => ?_
    obtain ⟨s, hs, hu⟩ := List.mem_filterMap.mp hu
    -- An update is made from a control behind the reference, and resizes it.
    obtain ⟨c, hc, rfl⟩ := Option.map_eq_some_iff.mp hu
    exact ⟨s, hs, rfl, (hbands s.object (hfound s hs).mem_allObjects).resized_withSizeOf? hc⟩

theorem moveSelection_changedOnlyAt {bands : List (Band Float)} (hbands : AllFloored bands)
    (selection : List ObjectRef) (dx dy : Float) :
    ChangedOnlyAt Control.Moved ((resolve bands selection).map Selected.place) bands
      (moveSelection bands selection dx dy) := by
  refine changedOnlyAt_shifts hbands (fun s hs => isIn_of_mem_resolve hs) fun u hu => ?_
  obtain ⟨s, hs, rfl⟩ := List.mem_map.mp hu
  exact ⟨s, hs, rfl, dx, dy, rfl⟩

theorem distribute_changedOnlyAt {bands : List (Band Float)} (hbands : AllFloored bands)
    (selection : List ObjectRef) (axis : Axis) :
    ChangedOnlyAt Control.Moved
      ((axis.order (resolve bands selection)).tail.dropLast.map Selected.place) bands
      (distribute bands selection axis) := by
  obtain ⟨updates, hupdates, hshifts⟩ := distribute_eq bands selection axis
  rw [hupdates]
  refine changedOnlyAt_shifts hbands (fun s hs => ?_) hshifts
  have hmem : s ∈ axis.order (resolve bands selection) :=
    List.mem_of_mem_tail (List.mem_of_mem_dropLast hs)
  exact isIn_of_mem_resolve (List.mem_mergeSort.mp hmem)

/-- An operation on a selection changes the controls that the selection resolves to, and of them
nothing but the position or the size; in the bands everything else is as it was. What a selection
resolves to are the places that it refers to, each once. Moving changes all of them, aligning and
equalizing spare the first, and distributing spares the first and the last along its axis. -/
theorem selection_changedOnlyAt {bands : List (Band Float)} (hbands : AllFloored bands)
    (selection : List ObjectRef) :
    let places := (resolve bands selection).map Selected.place
    (places = (selection.filterMap (locate bands)).eraseDups ∧
      ∀ reference ∈ places.head?, reference ∉ places.tail) ∧
    (∀ a, ChangedOnlyAt Control.Moved places.tail bands (align bands selection a)) ∧
    (∀ d, ChangedOnlyAt Control.Resized places.tail bands (sameSize bands selection d)) ∧
    (∀ dx dy, ChangedOnlyAt Control.Moved places bands (moveSelection bands selection dx dy)) ∧
    ∀ axis : Axis,
      let order := axis.order (resolve bands selection)
      let sorted := order.map Selected.place
      (order.Perm (resolve bands selection) ∧ order.Pairwise fun s t =>
        totalRank (axis.leading s.object.displayBox) ≤
          totalRank (axis.leading t.object.displayBox)) ∧
      (∀ outermost, outermost ∈ sorted.head? ∨ outermost ∈ sorted.getLast? →
        outermost ∉ sorted.tail.dropLast) ∧
      ChangedOnlyAt Control.Moved sorted.tail.dropLast bands
        (distribute bands selection axis) := by
  intro places
  -- The places are the references that are found, each once.
  have hplaces := places_resolve bands selection
  have hnodup : places.Nodup := by
    rw [show places = _ from hplaces]
    exact nodup_eraseDups _
  refine ⟨⟨hplaces, head_notMem_tail hnodup⟩, fun a => ?_, fun d => ?_,
    moveSelection_changedOnlyAt hbands selection, fun axis => ?_⟩
  · -- Aligning and sizing leave the reference, which is the first place.
    rw [← List.map_tail]
    exact align_changedOnlyAt hbands selection a
  · rw [← List.map_tail]
    exact sameSize_changedOnlyAt hbands selection d
  · have hperm := axis.perm_order (resolve bands selection)
    -- Sorting moves the places around, so they are distinct as before.
    have hsorted : ((axis.order (resolve bands selection)).map Selected.place).Nodup :=
      (hperm.map Selected.place).nodup_iff.mpr hnodup
    refine ⟨⟨hperm, axis.pairwise_order _⟩, fun _ => end_notMem_between hsorted, ?_⟩
    rw [← List.map_tail, ← List.map_dropLast]
    exact distribute_changedOnlyAt hbands selection axis

private def headAndRows : List (Band Float) :=
  [{ Band.ofHeight "h" "Header" .header 0 60 with
      objects := [.ofContent "logo" ⟨0, 5, 40, 30⟩ (.image "logo.png"),
        .ofLine "rule" (.thin 70 50 120 50)] },
    { Band.ofHeight "d" "Detail" .detail 60 40 with
      objects := [.ofContent "name" ⟨150, 65, 80, 20⟩ (.field "name" .general "")] }]

/-- Across bands, with a control and a band that are not there and one control twice. -/
private def acrossBands : List ObjectRef :=
  [⟨"h", "logo"⟩, ⟨"h", "gone"⟩, ⟨"h", "rule"⟩, ⟨"x", "logo"⟩, ⟨"h", "logo"⟩, ⟨"d", "name"⟩]

theorem selection_changedOnlyAt_acrossBands :
    AllFloored headAndRows ∧
    (resolve headAndRows acrossBands).map Selected.place = [(0, 0), (0, 1), (1, 0)] ∧
    ChangedOnlyAt Control.Moved [(0, 1), (1, 0)] headAndRows
      (align headAndRows acrossBands .bottom) ∧
    ChangedOnlyAt Control.Resized [(0, 1), (1, 0)] headAndRows
      (sameSize headAndRows acrossBands .width) ∧
    ChangedOnlyAt Control.Moved [(0, 0), (0, 1), (1, 0)] headAndRows
      (moveSelection headAndRows acrossBands 5 (-3)) ∧
    ChangedOnlyAt Control.Moved [(0, 1)] headAndRows
      (distribute headAndRows acrossBands .horizontal) := by
  have hbands : AllFloored headAndRows := by decide +kernel
  have hplaces : (resolve headAndRows acrossBands).map Selected.place =
      [(0, 0), (0, 1), (1, 0)] := by
    decide +kernel
  -- The controls were selected from left to right, so sorting leaves them as they are.
  have horder : Axis.horizontal.order (resolve headAndRows acrossBands) =
      resolve headAndRows acrossBands :=
    List.mergeSort_of_pairwise (by decide +kernel)
  obtain ⟨-, halign, hsize, hmove, hdistribute⟩ :=
    selection_changedOnlyAt hbands acrossBands
  have hmiddle := (hdistribute .horizontal).2.2
  rw [horder, hplaces] at hmiddle
  rw [hplaces] at halign hsize hmove
  exact ⟨hbands, hplaces, halign .bottom, hsize .width, hmove 5 (-3), hmiddle⟩

end BandedReport
