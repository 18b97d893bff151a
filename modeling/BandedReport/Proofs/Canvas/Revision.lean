import BandedReport.Canvas.Alignment

/-!
# Revisions of controls

Moving, aligning, distributing and equalizing rewrite controls where they stand. Whatever such an
operation computes, what it does to a list of bands is always the same: references are resolved to
places, and into each place goes a revision of the control that was found there, which has its
identifier and perhaps another body, and has been brought to the floors of the geometry.

* `Control.Revises` says that a control is a revision of another;
* `Revised` says that a list of bands came about by revisions;
* `Revised.outline_eq` and `Revised.normalizes` are what every revision keeps.
-/

namespace BandedReport

variable {κ : Type}

/-! ## §1 Outlines -/

/-- All controls, band after band. -/
def allObjects (bands : List (Band κ)) : List (Control κ) := bands.flatMap (·.objects)

/-- The identifier of a band and those of its controls. -/
def Band.outline (b : Band κ) : String × List String := (b.id, b.objects.map (·.id))

/-- The identifiers of a list of bands, and where they stand. -/
def outline (bands : List (Band κ)) : List (String × List String) := bands.map Band.outline

theorem mem_allObjects {bands : List (Band κ)} {c : Control κ} :
    c ∈ allObjects bands ↔ ∃ b ∈ bands, c ∈ b.objects := List.mem_flatMap

/-- The identifier of the control at a place can be read off the outline. -/
theorem id_objectAt? (bands : List (Band κ)) (b o : Nat) :
    (objectAt? bands b o).map (·.id) = ((outline bands)[b]?).bind (·.2[o]?) := by
  simp only [objectAt?, outline, List.getElem?_map]
  cases bands[b]? with
  | none => rfl
  | some band => simp [Band.outline]

/-! ## §2 Replacing controls -/

theorem Band.outline_set {b : Band κ} {o : Nat} {c : Control κ}
    (h : (b.objects.map (·.id))[o]? = some c.id) :
    Band.outline { b with objects := b.objects.set o c } = b.outline := by
  obtain ⟨ho, hid⟩ := List.getElem?_eq_some_iff.mp h
  have hids : (b.objects.set o c).map (·.id) = b.objects.map (·.id) := by
    rw [List.map_set, ← hid]
    exact List.set_getElem_self ho
  rw [Band.outline, Band.outline, hids]

theorem outline_replaceObject {bands : List (Band κ)} {u : Update κ}
    (h : (objectAt? bands u.bandIndex u.objectIndex).map (·.id) = some u.object.id) :
    outline (replaceObject bands u) = outline bands := by
  -- Outlines are compared band by band.
  apply List.ext_getElem?
  intro i
  simp only [outline, replaceObject, List.getElem?_map, List.getElem?_modify]
  split
  · -- Only the band of the update is touched, and there the identifier is the same.
    rename_i hi
    subst hi
    rw [id_objectAt?, outline, List.getElem?_map] at h
    cases hband : bands[u.bandIndex]? with
    | none => rfl
    | some band =>
      rw [hband] at h
      exact congrArg some (Band.outline_set h)
  · simp

/-- Controls that take the places of controls of the same identifiers leave the outline alone. -/
theorem outline_replaceObjects {bands : List (Band κ)} {updates : List (Update κ)}
    (h : ∀ u ∈ updates,
      (objectAt? bands u.bandIndex u.objectIndex).map (·.id) = some u.object.id) :
    outline (replaceObjects bands updates) = outline bands := by
  induction updates generalizing bands with
  | nil => rfl
  | cons u us ih =>
    obtain ⟨hu, hus⟩ := List.forall_mem_cons.mp h
    have hstep := outline_replaceObject hu
    -- The identifiers at all places are what they were, so the rest still fits.
    rw [← hstep]
    apply ih
    intro v hv
    rw [id_objectAt?, hstep, ← id_objectAt?]
    exact hus v hv

/-- With one band modified, a control is one that was there before or one of the modified band. -/
theorem mem_allObjects_modify {bands : List (Band κ)} {index : Nat} {f : Band κ → Band κ}
    {c : Control κ} (h : c ∈ allObjects (bands.modify index f)) :
    c ∈ allObjects bands ∨ ∃ b ∈ bands, c ∈ (f b).objects := by
  obtain ⟨band, hband, hc⟩ := mem_allObjects.mp h
  obtain ⟨i, hi⟩ := List.getElem?_of_mem hband
  rw [List.getElem?_modify] at hi
  obtain ⟨old, hold, rfl⟩ := Option.map_eq_some_iff.mp hi
  have hmem : old ∈ bands := List.mem_of_getElem? hold
  split at hc
  · exact .inr ⟨old, hmem, hc⟩
  · exact .inl (mem_allObjects.mpr ⟨old, hmem, hc⟩)

theorem mem_allObjects_replaceObject {bands : List (Band κ)} {u : Update κ} {c : Control κ}
    (h : c ∈ allObjects (replaceObject bands u)) : c ∈ allObjects bands ∨ c = u.object := by
  rcases mem_allObjects_modify h with hc | ⟨b, hb, hc⟩
  · exact .inl hc
  · rcases List.mem_or_eq_of_mem_set hc with hc | hc
    · exact .inl (mem_allObjects.mpr ⟨b, hb, hc⟩)
    · exact .inr hc

theorem mem_allObjects_replaceObjects {bands : List (Band κ)} {updates : List (Update κ)}
    {c : Control κ} (h : c ∈ allObjects (replaceObjects bands updates)) :
    c ∈ allObjects bands ∨ ∃ u ∈ updates, c = u.object := by
  induction updates generalizing bands with
  | nil => exact .inl h
  | cons u us ih =>
    rcases ih h with hc | ⟨v, hv, hc⟩
    · rcases mem_allObjects_replaceObject hc with hc | hc
      · exact .inl hc
      · exact .inr ⟨u, List.mem_cons_self, hc⟩
    · exact .inr ⟨v, List.mem_cons_of_mem _ hv, hc⟩

/-! ## §3 Resolved references -/

/-- The control that was found at a place is the one that stands there. -/
def Selected.IsIn (bands : List (Band κ)) (s : Selected κ) : Prop :=
  objectAt? bands s.bandIndex s.objectIndex = some s.object

theorem isIn_of_mem_resolveOnto {bands : List (Band κ)} {found : List (Selected κ)}
    {targets : List ObjectRef} (hfound : ∀ s ∈ found, s.IsIn bands) :
    ∀ s ∈ resolveOnto bands found targets, s.IsIn bands := by
  -- What has been found so far is in the bands; only a resolved reference adds to it.
  induction targets generalizing found with
  | nil => exact hfound
  | cons target rest ih =>
    unfold resolveOnto
    split
    · -- A reference that is not found, or found again, adds nothing.
      exact ih hfound
    · split
      · exact ih hfound
      · split
        · rename_i c hc
          apply ih
          intro s hs
          rcases List.mem_append.mp hs with hs | hs
          · exact hfound s hs
          · rw [List.mem_singleton.mp hs]
            exact hc
        · exact ih hfound

theorem isIn_of_mem_resolve {bands : List (Band κ)} {selection : List ObjectRef} {s : Selected κ}
    (hs : s ∈ resolve bands selection) : s.IsIn bands :=
  isIn_of_mem_resolveOnto (List.forall_mem_nil _) s hs

variable [Coordinate κ]

/-! ## §4 Revisions -/

/-- Every control after is one from before, or has been brought to the floors. -/
def Normalizes (before after : List (Control κ)) : Prop :=
  ∀ c ∈ after, c ∈ before ∨ ∃ d : Control κ, c = d.normalize

theorem Normalizes.refl (controls : List (Control κ)) : Normalizes controls controls :=
  fun _ hc => .inl hc

theorem Normalizes.trans {first second third : List (Control κ)} (h : Normalizes first second)
    (h' : Normalizes second third) : Normalizes first third := by
  intro c hc
  rcases h' c hc with hc | hnormal
  · exact h c hc
  · exact .inr hnormal

/-- The first control is the second with some body, brought to the floors. -/
def Control.Revises (revised c : Control κ) : Prop :=
  ∃ body, revised = Control.normalize { c with body }

theorem Control.translate_revises (c : Control κ) (dx dy : κ) : (c.translate dx dy).Revises c :=
  ⟨_, rfl⟩

theorem Control.resize_revises (c : Control κ) (handle : ResizeHandle) (dx dy : κ) :
    (c.resize handle dx dy).Revises c :=
  ⟨_, rfl⟩

theorem Control.withSizeOf?_revises {c reference revised : Control κ} {d : SizeDimension}
    (h : c.withSizeOf? reference d = some revised) : revised.Revises c := by
  unfold Control.withSizeOf? at h
  split at h
  · obtain ⟨length, -, rfl⟩ := Option.map_eq_some_iff.mp h
    exact ⟨_, rfl⟩
  · cases h
    exact ⟨_, rfl⟩

/-- An update that puts into a place a revision of the control which stands there. -/
def Update.Revises (bands : List (Band κ)) (u : Update κ) : Prop :=
  ∃ c, objectAt? bands u.bandIndex u.objectIndex = some c ∧ u.object.Revises c

/-- The second list of bands is the first with some controls revised. -/
def Revised (bands after : List (Band κ)) : Prop :=
  ∃ updates, after = replaceObjects bands updates ∧ ∀ u ∈ updates, u.Revises bands

namespace Revised

theorem refl (bands : List (Band κ)) : Revised bands bands := ⟨[], rfl, List.forall_mem_nil _⟩

/-- Revisions change no identifier and move no control to another place. -/
theorem outline_eq {bands after : List (Band κ)} (h : Revised bands after) :
    outline after = outline bands := by
  obtain ⟨updates, rfl, hupdates⟩ := h
  apply outline_replaceObjects
  intro u hu
  obtain ⟨c, hc, body, hbody⟩ := hupdates u hu
  rw [hc, hbody]
  rfl

theorem normalizes {bands after : List (Band κ)} (h : Revised bands after) :
    Normalizes (allObjects bands) (allObjects after) := by
  intro c hc
  obtain ⟨updates, rfl, hupdates⟩ := h
  rcases mem_allObjects_replaceObjects hc with hc | ⟨u, hu, rfl⟩
  · exact .inl hc
  · obtain ⟨_, _, _, hbody⟩ := hupdates u hu
    exact .inr ⟨_, hbody⟩

end Revised

/-! ## §5 Operations on a selection -/

theorem Selected.IsIn.revises {bands : List (Band κ)} {s : Selected κ} (hs : s.IsIn bands)
    {c : Control κ} (hc : c.Revises s.object) :
    Update.Revises bands ⟨s.bandIndex, s.objectIndex, c⟩ :=
  ⟨s.object, hs, hc⟩

theorem moveSelection_revised (bands : List (Band κ)) (selection : List ObjectRef) (dx dy : κ) :
    Revised bands (moveSelection bands selection dx dy) := by
  refine ⟨_, rfl, fun u hu => ?_⟩
  obtain ⟨s, hs, rfl⟩ := List.mem_map.mp hu
  exact (isIn_of_mem_resolve hs).revises (s.object.translate_revises dx dy)

theorem align_revised (bands : List (Band κ)) (selection : List ObjectRef) (a : Alignment) :
    Revised bands (align bands selection a) := by
  refine ⟨_, rfl, fun u hu => ?_⟩
  obtain ⟨⟨s, dx, dy⟩, hs, rfl⟩ := List.mem_map.mp hu
  -- Whatever has a delta is a control of the selection behind the reference.
  have hmem : s ∈ resolve bands selection := by
    unfold alignmentDeltas at hs
    split at hs
    · cases hs
    · rename_i first rest hresolve
      obtain ⟨s', hs', hshift⟩ := List.mem_map.mp hs
      obtain ⟨rfl, -⟩ := Prod.mk.inj hshift
      rw [hresolve]
      exact List.mem_cons_of_mem _ hs'
  exact (isIn_of_mem_resolve hmem).revises (s.object.translate_revises dx dy)

/-- Wherever boxes are placed, the updates revise the controls they were made from. -/
theorem revises_of_mem_placeWithGap {bands : List (Band κ)} {axis : Axis} {gap edge : κ}
    {items : List (Selected κ × Rect κ)} (h : ∀ item ∈ items, item.1.IsIn bands) :
    ∀ u ∈ placeWithGap axis gap edge items, u.Revises bands := by
  induction items generalizing edge with
  | nil => exact List.forall_mem_nil _
  | cons item rest ih =>
    obtain ⟨hitem, hrest⟩ := List.forall_mem_cons.mp h
    exact List.forall_mem_cons.mpr
      ⟨hitem.revises (item.1.object.translate_revises _ _), ih hrest⟩

theorem distribute_revised (bands : List (Band κ)) (selection : List ObjectRef) (axis : Axis) :
    Revised bands (distribute bands selection axis) := by
  unfold distribute
  dsimp only
  split
  · rename_i first second third more hsorted
    refine ⟨_, rfl, revises_of_mem_placeWithGap fun item hitem => ?_⟩
    -- What is placed is what lies between the first and the last of the sorted selection.
    have hmem : item ∈ first :: second :: third :: more := by
      rcases List.mem_cons.mp hitem with rfl | hitem
      · simp
      · have hlater := (List.dropLast_sublist (third :: more)).subset hitem
        exact List.mem_cons_of_mem _ (List.mem_cons_of_mem _ hlater)
    rw [← hsorted, List.mem_mergeSort] at hmem
    obtain ⟨s, hs, rfl⟩ := List.mem_map.mp hmem
    exact isIn_of_mem_resolve hs
  · -- Fewer than three controls are left as they are.
    exact .refl bands

theorem sameSize_revised (bands : List (Band κ)) (selection : List ObjectRef)
    (d : SizeDimension) : Revised bands (sameSize bands selection d) := by
  unfold sameSize
  split
  · exact .refl bands
  · rename_i first rest hresolve
    refine ⟨_, rfl, fun u hu => ?_⟩
    obtain ⟨s, hs, hu⟩ := List.mem_filterMap.mp hu
    obtain ⟨c, hc, rfl⟩ := Option.map_eq_some_iff.mp hu
    have hmem : s ∈ resolve bands selection := hresolve ▸ List.mem_cons_of_mem _ hs
    exact (isIn_of_mem_resolve hmem).revises (Control.withSizeOf?_revises hc)

end BandedReport
