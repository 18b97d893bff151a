import Mathlib
import BandedReport.Proofs.Canvas.Editing
import BandedReport.Proofs.Canvas.Identifiers

/-!
# Controls are conserved

Over a whole editing session no control is lost and none appears that was not pasted. Operations
that rewrite in place keep all identifiers where they are, a move between bands keeps them as a
whole, a removal takes away the controls that are referenced and no others, and what is pasted
gets identifiers that the session has not seen before. So all identifiers stay different, and a
reference means the same control throughout.

* `Identified` says that identifiers are different;
* `Edit.Conserves` says what an operation may do to the controls;
* `EditSession.apply_issues` is what an operation does to the identifiers, from which it follows
  for a step and for a run that they stay different.
-/

namespace BandedReport

variable {κ : Type}

/-! ## §1 Identifiers of bands -/

/-- Bands and controls with different identifiers; those of controls differ across all bands. -/
structure Identified (bands : List (Band κ)) : Prop where
  bandIds : (bands.map (·.id)).Nodup
  objectIds : (objectIds bands).Nodup

/-- The control that a reference is resolved to. -/
def object? (bands : List (Band κ)) (target : ObjectRef) : Option (Control κ) :=
  (locate bands target).bind fun place => objectAt? bands place.1 place.2

theorem map_id_eq (bands : List (Band κ)) : bands.map (·.id) = (outline bands).map (·.1) := by
  simp [outline, Band.outline, Function.comp_def]

theorem objectIds_eq (bands : List (Band κ)) : objectIds bands = (outline bands).flatMap (·.2) := by
  simp [objectIds, allObjects, outline, Band.outline, List.map_flatMap, List.flatMap_map]

/-- The identifiers of all controls are those of one band and those of the others. -/
theorem objectIds_perm {bands : List (Band κ)} {index : Nat} {band : Band κ}
    (h : bands[index]? = some band) :
    (objectIds bands).Perm (band.objects.map (·.id) ++ objectIds (bands.eraseIdx index)) := by
  obtain ⟨hindex, rfl⟩ := List.getElem?_eq_some_iff.mp h
  have hperm := (List.getElem_cons_eraseIdx_perm hindex).symm
  have hids := (hperm.flatMap_right (·.objects)).map (·.id)
  simpa [objectIds, allObjects] using hids

/-- With a band exchanged, the identifiers of the others are still there. -/
theorem objectIds_set_perm {bands : List (Band κ)} {index : Nat} {band : Band κ}
    (h : bands[index]? = some band) (after : Band κ) :
    (objectIds (bands.set index after)).Perm
      (after.objects.map (·.id) ++ objectIds (bands.eraseIdx index)) := by
  have hget : (bands.set index after)[index]? = some after := by
    simp [(List.getElem?_eq_some_iff.mp h).1]
  simpa [List.eraseIdx_set_eq] using objectIds_perm hget

theorem objectIds_set_append {bands : List (Band κ)} {index : Nat} {band : Band κ}
    (h : bands[index]? = some band) (added : List (Control κ)) :
    (objectIds (bands.set index { band with objects := band.objects ++ added })).Perm
      (added.map (·.id) ++ objectIds bands) := by
  refine (objectIds_set_perm h _).trans ?_
  -- The new ones move to the front, and what is left are the identifiers from before.
  rw [List.map_append]
  refine (List.perm_append_comm.append_right _).trans ?_
  rw [List.append_assoc]
  exact (objectIds_perm h).symm.append_left _

theorem objectIds_set_eraseIdx {bands : List (Band κ)} {index o : Nat} {band : Band κ}
    {c : Control κ} (h : bands[index]? = some band) (hc : band.objects[o]? = some c) :
    (c.id :: objectIds (bands.set index { band with objects := band.objects.eraseIdx o })).Perm
      (objectIds bands) := by
  obtain ⟨ho, rfl⟩ := List.getElem?_eq_some_iff.mp hc
  have hband := (List.getElem_cons_eraseIdx_perm ho).map (·.id)
  refine ((objectIds_set_perm h _).cons _).trans ?_
  exact (hband.append_right _).trans (objectIds_perm h).symm

private theorem modify_of_getElem? {bands : List (Band κ)} {index : Nat} {band : Band κ}
    (h : bands[index]? = some band) (f : Band κ → Band κ) :
    bands.modify index f = bands.set index (f band) := by
  rw [List.modify_eq_set_getElem?, h]
  rfl

theorem map_id_set {bands : List (Band κ)} {index : Nat} {band after : Band κ}
    (h : bands[index]? = some band) (hid : after.id = band.id) :
    (bands.set index after).map (·.id) = bands.map (·.id) := by
  obtain ⟨hindex, rfl⟩ := List.getElem?_eq_some_iff.mp h
  rw [List.map_set, hid]
  apply List.ext_getElem?
  intro i
  rw [List.getElem?_set]
  split
  · rename_i hi
    subst hi
    simp [hindex]
  · rfl

/-- A reference is resolved to the first control of its identifier in the first band of its. -/
theorem object?_eq (bands : List (Band κ)) (target : ObjectRef) :
    object? bands target =
      (bands.find? (·.id == target.bandId)).bind
        fun band => band.objects.find? (·.id == target.objectId) := by
  simp only [object?, locate, Band.objectIndex?, objectAt?, List.find?_eq_bind_findIdx?_getElem?]
  cases bands.findIdx? (·.id == target.bandId) with
  | none => rfl
  | some b =>
    cases hband : bands[b]? with
    | none => simp [hband]
    | some band =>
      cases hobject : band.objects.findIdx? (·.id == target.objectId) <;> simp [hband, hobject]

theorem removeObjects_ids (bands : List (Band κ)) (selection : List ObjectRef) :
    (removeObjects bands selection).map (·.id) = bands.map (·.id) ∧
      (objectIds (removeObjects bands selection)).Sublist (objectIds bands) := by
  constructor
  · simp [removeObjects, Function.comp_def]
  · apply List.Sublist.map
    simp only [allObjects, removeObjects, List.flatMap_map]
    induction bands with
    | nil => exact .slnil
    | cons band rest ih => exact List.filter_sublist.append ih

/-- A reference to a control that was not removed is resolved as before, others no longer. -/
theorem object?_removeObjects (bands : List (Band κ)) (selection : List ObjectRef)
    (target : ObjectRef) :
    object? (removeObjects bands selection) target =
      if target ∈ selection then none else object? bands target := by
  rw [object?_eq, object?_eq, removeObjects, List.find?_map]
  cases hband : bands.find? (·.id == target.bandId) with
  | none => simp [hband]
  | some band =>
    have hid : band.id = target.bandId := by simpa using List.find?_some hband
    -- Among the controls of the referenced identifier, all are removed or none is.
    have hkept : (fun c : Control κ =>
        !selection.contains ⟨band.id, c.id⟩ && c.id == target.objectId) =
          fun c => !selection.contains target && c.id == target.objectId := by
      funext c
      -- Only a control of the referenced identifier can be told apart by the selection.
      by_cases hc : c.id = target.objectId
      · rw [hid, hc]
      · rw [beq_false_of_ne hc, Bool.and_false, Bool.and_false]
    simp only [Function.comp_def, hband, Option.map_some, Option.bind_some, List.find?_filter,
      Bool.decide_and, Bool.decide_eq_true, hkept]
    -- In either case both sides look for the identifier in the band.
    by_cases htarget : target ∈ selection
    · simp [htarget]
    · simp [htarget]

variable [Coordinate κ]

/-! ## §2 What an operation keeps -/

/-- What an operation may do to the controls, given the identifiers that were seen before it. -/
def Edit.Conserves (seen : String → Prop) (before after : List (Band κ)) : Edit κ → Prop
  | .rewrite _ => objectIds after = objectIds before
  | .moveToBand .. => (objectIds after).Perm (objectIds before)
  | .remove selection =>
    (objectIds after).Sublist (objectIds before) ∧
      ∀ target, object? after target = if target ∈ selection then none else object? before target
  | .paste index objects _ _ =>
    match before[index]? with
    | none => after = before
    | some band =>
      ∃ added : List (Control κ),
        after = before.set index { band with objects := band.objects ++ added } ∧
        added.length = objects.length ∧ (added.map (·.id)).Nodup ∧ ∀ c ∈ added, ¬ seen c.id

theorem Settles.map_id_eq {bands after : List (Band κ)} (h : Settles bands after) :
    after.map (·.id) = bands.map (·.id) := by
  rw [BandedReport.map_id_eq, h.outline_eq, ← BandedReport.map_id_eq]

theorem Settles.objectIds_eq {bands after : List (Band κ)} (h : Settles bands after) :
    objectIds after = objectIds bands := by
  rw [BandedReport.objectIds_eq, h.outline_eq, ← BandedReport.objectIds_eq]

/-- A control that is moved to another band is missed in one place and found in another. -/
theorem moveToBand_ids (bands : List (Band κ)) (target : ObjectRef) (bandId : String) :
    (moveToBand bands target bandId).map (·.id) = bands.map (·.id) ∧
      (objectIds (moveToBand bands target bandId)).Perm (objectIds bands) := by
  unfold moveToBand
  split
  · -- Where the control or the band is missing, or the band is its own, nothing moves.
    rename_i source index destination _ hdestination
    split
    · exact ⟨rfl, .rfl⟩
    · rename_i c hc
      obtain ⟨band, hband, hobject⟩ := Option.bind_eq_some_iff.mp hc
      split
      · exact ⟨rfl, .rfl⟩
      · rename_i hne
        have hne : source ≠ destination := by simpa using hne
        obtain ⟨goal, hgoal⟩ : ∃ goal, bands[destination]? = some goal := by
          have hlt := (List.findIdx?_eq_some_iff_findIdx_eq.mp hdestination).1
          exact ⟨_, List.getElem?_eq_getElem hlt⟩
        -- The control is taken out of the one band before it is put into the other.
        have htaken := objectIds_set_eraseIdx hband hobject
        rw [modify_of_getElem? hband, modify_of_getElem? ((List.getElem?_set_ne hne).trans hgoal)]
        constructor
        · rw [map_id_set ((List.getElem?_set_ne hne).trans hgoal), map_id_set hband] <;> rfl
        · exact (objectIds_set_append ((List.getElem?_set_ne hne).trans hgoal) _).trans htaken
  · exact ⟨rfl, .rfl⟩

/-! ## §3 Sessions -/

namespace EditSession

open SequentialIds (generator)

/-- Begin to edit bands; what is pasted gets identifiers after those in use. -/
def begin (stem : String) (bands : List (Band κ)) : EditSession κ SequentialIds :=
  ⟨bands, .afterExisting stem bands⟩

/-- Has an identifier been in use before or after one of the operations? -/
def Seen (start : EditSession κ SequentialIds) (edits : List (Edit κ)) (id : String) : Prop :=
  ∃ earlier, earlier <+: edits ∧ id ∈ objectIds (start.run generator earlier).bands

/-- What is pasted is put behind the controls of the band, under the next identifiers. -/
theorem apply_paste {s : EditSession κ SequentialIds} {index : Nat} {band : Band κ}
    (h : s.bands[index]? = some band) (objects : List (Control κ)) (dx dy : κ) :
    ∃ added : List (Control κ),
      s.apply generator (.paste index objects dx dy) =
        ⟨s.bands.set index { band with objects := band.objects ++ added },
          s.ids.advance objects.length⟩ ∧
      added.map (·.id) = s.ids.issued objects.length := by
  obtain ⟨hids, hnext⟩ := ids_copies band.maxZIndex (lowestZIndex objects) dx dy s.ids objects
  refine ⟨_, ?_, hids⟩
  simp only [apply, h, pasteObjects, hnext]

/-- An operation keeps the identifiers of bands, and leaves only identifiers of controls that were
there before or that the source has given out for it. -/
theorem apply_issues (s : EditSession κ SequentialIds) (e : Edit κ) : ∃ count,
    (s.apply generator e).ids = s.ids.advance count ∧
    (s.apply generator e).bands.map (·.id) = s.bands.map (·.id) ∧
    (objectIds (s.apply generator e).bands).Subperm
      (s.ids.issued count ++ objectIds s.bands) := by
  cases e with
  | rewrite r =>
    -- Rewriting keeps all identifiers, and no new one is needed.
    have h := r.settles s.bands
    exact ⟨0, rfl, h.map_id_eq, h.objectIds_eq ▸ .refl _⟩
  | moveToBand target bandId =>
    obtain ⟨hbands, hobjects⟩ := moveToBand_ids s.bands target bandId
    exact ⟨0, rfl, hbands, hobjects.subperm⟩
  | remove selection =>
    obtain ⟨hbands, hobjects⟩ := removeObjects_ids s.bands selection
    exact ⟨0, rfl, hbands, hobjects.subperm⟩
  | paste index objects dx dy =>
    -- Pasting takes one new identifier for each control, and nothing from a band that is missing.
    cases hband : s.bands[index]? with
    | none =>
      simp only [apply, hband]
      exact ⟨0, rfl, trivial, .refl _⟩
    | some band =>
      obtain ⟨added, hpaste, hadded⟩ := apply_paste hband objects dx dy
      rw [hpaste]
      refine ⟨objects.length, rfl, map_id_set hband rfl, ?_⟩
      rw [← hadded]
      exact (objectIds_set_append hband added).subperm

/-- Identifiers are different, and the source begins after all of them. -/
structure Sound (s : EditSession κ SequentialIds) : Prop where
  identified : Identified s.bands
  bounds : s.ids.Bounds (objectIds s.bands)

theorem sound_begin (stem : String) {bands : List (Band κ)} (h : Identified bands) :
    (begin stem bands).Sound :=
  ⟨h, SequentialIds.bounds_afterExisting stem bands⟩

theorem Sound.apply {s : EditSession κ SequentialIds} (hs : s.Sound) {e : Edit κ}
    (hnumber : (s.apply generator e).ids.number ≤ 2 ^ 64) :
    (s.apply generator e).Sound := by
  obtain ⟨count, hids, hbands, hobjects⟩ := s.apply_issues e
  rw [hids] at hnumber
  -- The identifiers given out differ from each other and from all in use, and no others are left.
  have hnodup : (s.ids.issued count ++ objectIds s.bands).Nodup :=
    (SequentialIds.nodup_issued hnumber).append hs.identified.objectIds
      (hs.bounds.disjoint_issued hnumber)
  obtain ⟨kept, hperm, hsub⟩ := hobjects
  refine ⟨⟨hbands ▸ hs.identified.bandIds, hperm.nodup_iff.mp (hsub.nodup hnodup)⟩, ?_⟩
  rw [hids]
  exact (hs.bounds.advance hnumber).mono fun id hid => hsub.subset (hperm.mem_iff.mpr hid)

theorem run_ids (s : EditSession κ SequentialIds) (edits : List (Edit κ)) :
    ∃ count, (s.run generator edits).ids = s.ids.advance count := by
  induction edits generalizing s with
  | nil => exact ⟨0, rfl⟩
  | cons e es ih =>
    obtain ⟨count, hids, -⟩ := s.apply_issues e
    obtain ⟨more, hmore⟩ := ih (s.apply generator e)
    refine ⟨count + more, hmore.trans ?_⟩
    rw [hids]
    simp only [SequentialIds.advance, Nat.add_assoc]

theorem number_le_run (s : EditSession κ SequentialIds) (edits : List (Edit κ)) :
    s.ids.number ≤ (s.run generator edits).ids.number := by
  obtain ⟨count, hids⟩ := s.run_ids edits
  rw [hids]
  exact Nat.le_add_right _ _

theorem Sound.run {s : EditSession κ SequentialIds} (hs : s.Sound) {edits : List (Edit κ)}
    (hnumber : (s.run generator edits).ids.number ≤ 2 ^ 64) :
    (s.run generator edits).Sound := by
  -- The number only grows, so a bound at the end is one at every step.
  induction edits generalizing s with
  | nil => exact hs
  | cons e es ih => exact ih (hs.apply (le_trans (number_le_run _ es) hnumber)) hnumber

/-- What the source gives out after some operations was not in use before any of them. -/
theorem Sound.not_seen {start : EditSession κ SequentialIds} (hstart : start.Sound)
    {edits : List (Edit κ)} {count : Nat}
    (hnumber : ((start.run generator edits).ids.advance count).number ≤ 2 ^ 64)
    {id : String} (hid : id ∈ (start.run generator edits).ids.issued count) :
    ¬ start.Seen edits id := by
  rintro ⟨earlier, ⟨later, rfl⟩, hseen⟩
  -- When it was seen, its number lay below that of the source, which has not gone back since.
  -- Between then and now the source has given out a number of identifiers.
  rw [run_append] at hid hnumber
  obtain ⟨passed, hids⟩ := run_ids (start.run generator earlier) later
  rw [hids] at hid hnumber
  have hle : (start.run generator earlier).ids.number ≤ 2 ^ 64 :=
    le_trans (Nat.le_add_right _ (passed + count)) (by rwa [← Nat.add_assoc])
  -- A new identifier has a number that was not given out then.
  obtain ⟨n, hn, hge, -⟩ := SequentialIds.numberOf?_of_mem_issued hnumber hid
  have hlt := (hstart.run hle).bounds id hseen n hn
  exact absurd (le_trans (Nat.le_add_right _ passed) hge) (Nat.not_le.mpr hlt)

/-- After any operations of a sound session, the next one conserves the controls. -/
theorem Sound.conserves {start : EditSession κ SequentialIds} (hstart : start.Sound)
    {edits : List (Edit κ)} {e : Edit κ}
    (hnumber : ((start.run generator edits).apply generator e).ids.number ≤ 2 ^ 64) :
    e.Conserves (start.Seen edits) (start.run generator edits).bands
      ((start.run generator edits).apply generator e).bands := by
  cases e with
  | rewrite r => exact (r.settles _).objectIds_eq
  | moveToBand target bandId => exact (moveToBand_ids _ target bandId).2
  | remove selection =>
    exact ⟨(removeObjects_ids _ selection).2, object?_removeObjects _ selection⟩
  | paste index objects dx dy =>
    cases hband : (start.run generator edits).bands[index]? with
    | none => simp only [Edit.Conserves, EditSession.apply, hband]
    | some band =>
      -- As many controls as were copied, under identifiers of their own that were never seen.
      obtain ⟨added, hpaste, hadded⟩ := apply_paste hband objects dx dy
      rw [hpaste] at hnumber
      simp only [Edit.Conserves, hband, hpaste]
      refine ⟨added, rfl, ?_, ?_, fun c hc => hstart.not_seen hnumber ?_⟩
      · simpa using congrArg List.length hadded
      · rw [hadded]
        exact SequentialIds.nodup_issued hnumber
      · rw [← hadded]
        exact List.mem_map_of_mem hc

/-- In an editing session that begins with different identifiers, identifiers stay different
whatever is done, stale references included, and every operation conserves the controls: those
that rewrite in place or move between bands keep the identifiers that are in use, a removal takes
away exactly what is referenced, and a paste adds one control for each that it was given, under
identifiers that were not in use at any time before, and leaves the others alone. The numbers of
the source have sixty-four bits; they are assumed not to run out. -/
theorem run_conserves (stem : String) {bands : List (Band κ)} (hbands : Identified bands)
    (edits : List (Edit κ))
    (hnumber : ((begin stem bands).run generator edits).ids.number < 2 ^ 64) :
    Identified ((begin stem bands).run generator edits).bands ∧
      ∀ earlier e later, edits = earlier ++ e :: later →
        e.Conserves ((begin stem bands).Seen earlier)
          ((begin stem bands).run generator earlier).bands
          (((begin stem bands).run generator earlier).apply generator e).bands := by
  have hstart := sound_begin stem hbands
  refine ⟨(hstart.run hnumber.le).identified, ?_⟩
  rintro earlier e later rfl
  rw [run_append] at hnumber
  -- What the source gives out up to here it has given out in the end.
  exact hstart.conserves (le_trans (number_le_run _ later) hnumber.le)

private def square (id : String) : Control Float :=
  .ofContent id ⟨10, 10, 30, 30⟩ (.shape .rectangle none)

private def twoBands : List (Band Float) :=
  [{ Band.ofHeight "h" "Header" .header 0 50 with objects := [square "obj1", square "obj007"] },
    { Band.ofHeight "d" "Detail" .detail 50 50 with objects := [square "total"] }]

/-- A control is pasted and aligned, its original is moved to another band, and one more is removed
together with one that is no longer where the reference has it. -/
private def pasteAndMove : List (Edit Float) :=
  [.paste 0 [square "obj007"] 5 5, .rewrite (.align [⟨"h", "obj1"⟩, ⟨"h", "obj8"⟩] .left),
    .moveToBand ⟨"h", "obj007"⟩ "d", .remove [⟨"h", "obj007"⟩, ⟨"d", "total"⟩],
    .paste 1 [square "total", square "total"] 0 0]

/-- The leading zeros of an identifier do not hide its number. -/
theorem run_conserves_obj007 :
    let start := begin "obj" twoBands
    let after := start.run generator pasteAndMove
    (Identified twoBands ∧ after.ids.number < 2 ^ 64) ∧
    objectIds after.bands = ["obj1", "obj8", "obj007", "obj9", "obj10"] ∧
    Identified after.bands :=
  have hbands : Identified twoBands := ⟨by decide +kernel, by decide +kernel⟩
  have hnumber : ((begin "obj" twoBands).run generator pasteAndMove).ids.number < 2 ^ 64 := by
    decide +kernel
  ⟨⟨hbands, hnumber⟩, by decide +kernel, (run_conserves "obj" hbands pasteAndMove hnumber).1⟩

end EditSession

end BandedReport
