import BandedReport.Proofs.Canvas.Relocation

/-!
# Boundaries moved again, bands laid out again

Where a band lies does not depend on the way it took. A boundary that is moved several times comes
to lie where the last move alone would have put it, and the bands below are where they would be
then; moved back to where it was, it leaves no trace. Bands that are laid out close up, whatever
they were like before, and laying them out a second time changes nothing.

* `Band.follow_follow` says that a band which follows twice follows once by both distances;
* `resizeBand_pathIndependent` is about the boundary that is moved or dragged again and again;
* `Band.IsRelaid` says what a band keeps when the bands are laid out;
* `restackBands_contiguous` says that laying out makes a contiguous stack of any bands, and is done
  after once.
-/

namespace BandedReport

/-! ## §1 Bands that follow twice -/

namespace Band

variable {b b' b'' : Band ℚ} {dy dy' : ℚ}

theorem IsMoved.trans (h : b.IsMoved dy b') (h' : b'.IsMoved dy' b'') :
    b.IsMoved (dy + dy') b'' := by
  refine ⟨?_, ?_, ?_⟩
  · rw [h'.top, h.top, add_assoc]
  · rw [h'.objects, h.objects, List.map_map]
    exact List.map_congr_left fun c _ => c.lower_lower dy dy'
  · rw [h'.rest, h.rest]

/-- Upright bands that came from one band by one distance differ in their boundaries at most. -/
theorem IsMoved.eq (h : b.IsMoved dy b') (h' : b.IsMoved dy b'') (hupright : b'.Upright)
    (hupright' : b''.Upright) (hbottom : b'.actualBottom = b''.actualBottom) : b' = b'' := by
  have htop : b'.top = b''.top := h.top.trans h'.top.symm
  have hobjects : b'.objects = b''.objects := h.objects.trans h'.objects.symm
  rw [h.rest, h'.rest, hupright.bottom_eq, hupright'.bottom_eq, htop, hobjects, hbottom]

theorem IsMoved.aboveFloors (h : b.IsMoved dy b') (hfloors : ∀ c ∈ b.objects, c.AboveFloors) :
    ∀ c ∈ b'.objects, c.AboveFloors := by
  rw [h.objects]
  exact List.forall_mem_map.mpr fun c hc => (hfloors c hc).lower dy

theorem Upright.withBottom_eq (h : b.Upright) : { b with bottom := b.actualBottom } = b :=
  congrArg (fun bottom => { b with bottom }) h.bottom_eq.symm

/-- A band that follows twice is where it would be had it followed once by both distances. -/
theorem follow_follow (hupright : b.Upright) (hfloors : ∀ c ∈ b.objects, c.AboveFloors)
    (dy dy' : ℚ) : (b.follow dy).follow dy' = b.follow (dy + dy') := by
  -- Upright bands that came the same way are equal once their boundaries are.
  have hfirst := isMoved_follow hfloors dy
  refine (hfirst.trans (isMoved_follow (hfirst.aboveFloors hfloors) dy')).eq
    (isMoved_follow hfloors (dy + dy')) hupright.follow.follow hupright.follow ?_
  simp only [actualBottom_follow, add_assoc]

end Band

/-! ## §2 Moving a boundary again -/

theorem exists_append_cons {bands : List (Band ℚ)} {index : Nat} {band : Band ℚ}
    (h : bands[index]? = some band) :
    ∃ above below, bands = above ++ band :: below ∧ above = bands.take index ∧
      above.length = index := by
  obtain ⟨hindex, -⟩ := List.getElem?_eq_some_iff.mp h
  exact ⟨_, _, eq_take_cons_drop h, rfl, List.length_take_of_le (Nat.le_of_lt hindex)⟩

/-- Move a boundary to one target after another. -/
def moveBoundary {κ : Type} [Coordinate κ] (index : Nat) (spacing : κ) (bands : List (Band κ))
    (targets : List κ) : List (Band κ) :=
  targets.foldl (fun bands target => resizeBand bands index target spacing) bands

theorem moveBoundary_concat (index : Nat) (spacing : ℚ) (bands : List (Band ℚ))
    (targets : List ℚ) (last : ℚ) :
    moveBoundary index spacing bands (targets ++ [last]) =
      resizeBand (moveBoundary index spacing bands targets) index last spacing :=
  List.foldl_concat ..

section Again

variable {bands : List (Band ℚ)} (hupright : ∀ b ∈ bands, b.Upright)
  (hfloors : ∀ c ∈ allObjects bands, c.AboveFloors)

include hupright hfloors

/-- The second of two moves of a boundary decides. -/
theorem resizeBand_resizeBand (index : Nat) (first second spacing : ℚ) :
    resizeBand (resizeBand bands index first spacing) index second spacing =
      resizeBand bands index second spacing := by
  cases hband : bands[index]? with
  | none => simp only [resizeBand, hband]
  | some band =>
    obtain ⟨above, below, rfl, -, rfl⟩ := exists_append_cons hband
    simp only [resizeBand_append_cons, List.map_map]
    -- The boundary is stopped by the top of its band and by the bands above, which have stayed.
    refine congrArg (fun rest => above ++ _ :: rest) (List.map_congr_left fun b hb => ?_)
    have hmem : b ∈ above ++ band :: below := by simp [hb]
    rw [Function.comp_apply, Band.follow_follow (hupright b hmem)
      fun c hc => hfloors c (mem_allObjects.mpr ⟨b, hmem, hc⟩)]
    congr 1
    exact sub_add_sub_cancel' _ _ _

/-- The last of any moves of a boundary decides. -/
theorem resizeBand_moveBoundary (index : Nat) (spacing : ℚ) (targets : List ℚ) (last : ℚ) :
    resizeBand (moveBoundary index spacing bands targets) index last spacing =
      resizeBand bands index last spacing := by
  induction targets using List.reverseRecOn generalizing last with
  | nil => rfl
  | append_singleton targets target ih =>
    -- All moves but the last two come to the first of these, so two moves are left.
    rw [moveBoundary_concat, ih target]
    exact resizeBand_resizeBand hupright hfloors index target last spacing

omit hfloors in
/-- A boundary that is moved to where it is stays, and so does everything else. -/
theorem resizeBand_actualBottom {index : Nat} {band : Band ℚ} (hband : bands[index]? = some band)
    {spacing : ℚ} (hclears : ∀ previous ∈ (bands.take index).getLast?,
      previous.actualBottom + spacing ≤ band.actualBottom) :
    resizeBand bands index band.actualBottom spacing = bands := by
  obtain ⟨above, below, rfl, habove, rfl⟩ := exists_append_cons hband
  rw [← habove] at hclears
  have hself : band.Upright := hupright band (by simp)
  -- The bands above do not reach down to the boundary, so it is where it may be.
  have hlowest : minBottom above.getLast? band spacing ≤ band.actualBottom := by
    cases hlast : above.getLast? with
    | none => exact hself.top_le
    | some previous =>
      rw [minBottom, Exact.larger_eq_max]
      exact max_le hself.top_le (hclears previous hlast)
  have hstays : ∀ b ∈ below, b.follow 0 = b := fun b _ => if_pos rfl
  rw [resizeBand_append_cons, max_eq_left hlowest, sub_self, List.map_congr_left hstays,
    List.map_id']
  exact congrArg (above ++ · :: below) hself.withBottom_eq

end Again

/-! ## §3 Dragging a boundary again -/

/-- A whole drag of a boundary: where the pointer goes down, where it passes, where it goes up. -/
structure BoundaryGesture (κ : Type) where
  startY : κ
  passed : List κ
  endY : κ

namespace BoundaryGesture

/-- The actions of a drag of the boundary of an index. -/
def actions {κ : Type} (index : Nat) (g : BoundaryGesture κ) : List (BoundaryAction κ) :=
  .press index g.startY :: (g.passed.map .pointerMove ++ [.release g.endY])

/-- Where a drag asks a boundary to be: as far from where it is as the pointer went. -/
def target {κ : Type} [Coordinate κ] (boundary : κ) (g : BoundaryGesture κ) : κ :=
  boundary + (g.endY - g.startY)

end BoundaryGesture

namespace BoundarySession

variable {spacing : ℚ} (s : BoundarySession ℚ) (g : BoundaryGesture ℚ) {index : Nat}

theorem run_append (actions more : List (BoundaryAction ℚ)) :
    s.run spacing (actions ++ more) = (s.run spacing actions).run spacing more :=
  List.foldl_append

/-- Where the pointer passes is shown, but not kept. -/
theorem run_pointerMoves (ys : List ℚ) : s.run spacing (ys.map .pointerMove) = s := by
  induction ys with
  | nil => rfl
  | cons y ys ih => exact ih

/-- A drag is a press and a release. -/
theorem run_actions : s.run spacing (g.actions index) =
    (s.apply spacing (.press index g.startY)).apply spacing (.release g.endY) := by
  show (s.apply spacing (.press index g.startY)).run spacing (_ ++ _) = _
  rw [run_append, run_pointerMoves]
  rfl

theorem bands_release (y : ℚ) :
    (s.apply spacing (.release y)).bands = (s.drag.pointerMove y spacing).getD s.bands :=
  rfl

/-- A drag of a boundary moves it to where the drag asks it to be. -/
theorem bands_run_actions {band : Band ℚ} (h : s.bands[index]? = some band) :
    (s.run spacing (g.actions index)).bands =
      resizeBand s.bands index (g.target band.actualBottom) spacing := by
  obtain ⟨hindex, rfl⟩ := List.getElem?_eq_some_iff.mp h
  rw [run_actions, bands_release, drag_press, dif_pos hindex]
  rfl

theorem bands_run_actions_of_none (h : s.bands[index]? = none) :
    (s.run spacing (g.actions index)).bands = s.bands := by
  rw [run_actions, bands_release, drag_press, dif_neg (by simpa using h)]
  rfl

/-- Drags of one boundary move it to one target after another. -/
theorem exists_moveBoundary (gestures : List (BoundaryGesture ℚ)) :
    ∃ targets, (s.run spacing (gestures.flatMap (·.actions index))).bands =
      moveBoundary index spacing s.bands targets := by
  -- A drag of a boundary that is not there is no move at all.
  induction gestures generalizing s with
  | nil => exact ⟨[], rfl⟩
  | cons g rest ih =>
    obtain ⟨targets, htargets⟩ := ih (s.run spacing (g.actions index))
    rw [List.flatMap_cons, run_append, htargets]
    cases hband : s.bands[index]? with
    | none => exact ⟨targets, by rw [bands_run_actions_of_none s g hband]⟩
    | some band =>
      exact ⟨g.target band.actualBottom :: targets, by rw [bands_run_actions s g hband]; rfl⟩

end BoundarySession

/-- **The way of a boundary leaves no trace.** Let no band be inverted, and let the controls be at
the floors of the geometry. A boundary that is moved and moved again comes to lie where the second
move alone would have put it, with all bands and controls below; so it is with any number of moves,
and of whole drags, of which the last decides. A boundary that the bands above have not pushed down
can be moved back to where it was, and everything is as before. -/
theorem resizeBand_pathIndependent {bands : List (Band ℚ)} (hupright : ∀ b ∈ bands, b.Upright)
    (hfloors : ∀ c ∈ allObjects bands, c.AboveFloors) (index : Nat) (spacing : ℚ) :
    (∀ first second, resizeBand (resizeBand bands index first spacing) index second spacing =
      resizeBand bands index second spacing) ∧
    (∀ targets last, moveBoundary index spacing bands (targets ++ [last]) =
      resizeBand bands index last spacing) ∧
    (∀ (earlier : List (BoundaryGesture ℚ)) (last : BoundaryGesture ℚ),
      let s := (BoundarySession.start bands).run spacing (earlier.flatMap (·.actions index))
      ∀ band, s.bands[index]? = some band →
        (s.run spacing (last.actions index)).bands =
          resizeBand bands index (last.target band.actualBottom) spacing) ∧
    ∀ band, bands[index]? = some band →
      (∀ previous ∈ (bands.take index).getLast?,
        previous.actualBottom + spacing ≤ band.actualBottom) →
      ∀ targets, moveBoundary index spacing bands (targets ++ [band.actualBottom]) = bands := by
  have hmoves : ∀ targets last, moveBoundary index spacing bands (targets ++ [last]) =
      resizeBand bands index last spacing := by
    intro targets last
    rw [moveBoundary_concat]
    exact resizeBand_moveBoundary hupright hfloors index spacing targets last
  -- Two moves, many moves, drags, and the way back.
  refine ⟨fun first second => resizeBand_resizeBand hupright hfloors index first second spacing,
    hmoves, ?_, ?_⟩
  · intro earlier last s band hband
    -- Whatever was dragged before, the bands are those of some moves of the boundary.
    obtain ⟨targets, htargets⟩ : ∃ targets, s.bands = moveBoundary index spacing bands targets :=
      (BoundarySession.start bands).exists_moveBoundary earlier
    rw [s.bands_run_actions last hband, htargets]
    exact resizeBand_moveBoundary hupright hfloors index spacing targets _
  · intro band hband hclears targets
    rw [hmoves]
    exact resizeBand_actualBottom hupright hband hclears

/-- The detail band overlaps the header, and there is a gap below it. -/
private def overlapping : List (Band ℚ) :=
  [{ Band.ofHeight "h" "Header" .header 0 50 with
      objects := [.ofContent "title" ⟨10, 10, 80, 20⟩ (.text "Prices")] },
    { Band.ofHeight "d" "Detail" .detail 40 30 with
      objects := [.ofContent "price" ⟨10, 45, 40, 20⟩ (.field "price" .general "?")] },
    { Band.ofHeight "s" "Summary" .summary 90 40 with
      objects := [.ofLine "rule" (.thin 100 95 0 95)] }]

theorem resizeBand_pathIndependent_overlapping :
    let up : BoundaryGesture ℚ := ⟨70, [200], 60⟩
    let down : BoundaryGesture ℚ := ⟨60, [0, 300], 80⟩
    (∀ b ∈ overlapping, b.Upright) ∧ (∀ c ∈ allObjects overlapping, c.AboveFloors) ∧
    resizeBand (resizeBand overlapping 1 (-300) 4) 1 80 4 = resizeBand overlapping 1 80 4 ∧
    moveBoundary 1 4 overlapping [200, -300, 80] = resizeBand overlapping 1 80 4 ∧
    ((BoundarySession.start overlapping).run 4 (up.actions 1 ++ down.actions 1)).bands =
      resizeBand overlapping 1 80 4 ∧
    moveBoundary 1 4 overlapping [200, -300, 70] = overlapping := by
  intro up down
  have hupright : ∀ b ∈ overlapping, b.Upright := by
    intro b hb
    simp only [overlapping, List.mem_cons, List.not_mem_nil, or_false] at hb
    rcases hb with rfl | rfl | rfl <;> exact ⟨by decide +kernel, rfl⟩
  have hfloors : ∀ c ∈ allObjects overlapping, c.AboveFloors := by decide +kernel
  obtain ⟨htwo, hmany, hdrags, hback⟩ := resizeBand_pathIndependent hupright hfloors 1 4
  -- The two drags are one run of actions, cut between them.
  have hdragged := hdrags [up] down _ rfl
  rw [List.flatMap_singleton, ← BoundarySession.run_append] at hdragged
  refine ⟨hupright, hfloors, htwo (-300) 80, hmany [200, -300] 80, hdragged.trans ?_, ?_⟩
  · -- The first drag has left the boundary at 60.
    congr 1
    decide +kernel
  · refine Eq.trans ?_ (hback _ rfl (by decide +kernel) [200, -300])
    congr 1
    decide +kernel

/-! ## §4 Laying bands out again -/

/-- The second band is the first one, laid out elsewhere. -/
structure Band.IsRelaid (b b' : Band ℚ) : Prop where
  height_eq : b'.height = b.height
  bottom_eq : b'.bottom = b'.actualBottom
  /-- The controls went along with the top, and were normalized; at the floors of the geometry that
  changes nothing else. -/
  objects : List.Forall₂ (fun c c' => c' = (c.lower (b'.top - b.top)).normalize ∧
    (c.AboveFloors → c' = c.lower (b'.top - b.top))) b.objects b'.objects
  rest : b' = { b with
    top := b'.top, bottom := b'.bottom, actualBottom := b'.actualBottom, objects := b'.objects }

namespace Band

theorem isRelaid_placeAt (b : Band ℚ) (top : ℚ) : b.IsRelaid (b.placeAt top) where
  height_eq := b.height_placeAt top
  bottom_eq := rfl
  objects := by
    rw [objects_placeAt, top_placeAt, List.forall₂_map_right_iff, List.forall₂_same]
    exact fun c _ => ⟨rfl, fun hc => (hc.lower _).normalize_eq⟩
  rest := b.rest_placeAt top

/-- An upright band with controls at the floors is placed where it is. -/
theorem placeAt_top {b : Band ℚ} (hupright : b.Upright) (hfloors : ∀ c ∈ b.objects, c.AboveFloors) :
    b.placeAt b.top = b := by
  -- Both the band and what is placed come from the band by no distance, and both are upright.
  have hplaced := isMoved_placeAt hfloors b.top
  rw [sub_self] at hplaced
  refine hplaced.eq (b.isMoved_withBottom b.bottom b.actualBottom) (b.upright_placeAt b.top)
    hupright ?_
  rw [actualBottom_placeAt, height_eq, max_eq_left (sub_nonneg.mpr hupright.top_le), add_sub_cancel]

end Band

theorem restackBelow_eq_self {spacing : ℚ} {upper : Band ℚ} {bands : List (Band ℚ)}
    (hchain : (upper :: bands).IsChain (Band.Adjoins spacing))
    (hplaced : ∀ b ∈ bands, b.placeAt b.top = b) :
    restackBelow upper.actualBottom spacing bands = bands := by
  -- The place where the next band is put is the one where it already is.
  induction bands generalizing upper with
  | nil => rfl
  | cons b rest ih =>
    obtain ⟨hadjoins, hbelow⟩ := List.isChain_cons_cons.mp hchain
    obtain ⟨hb, hrest⟩ := List.forall_mem_cons.mp hplaced
    have hplace : b.placeAt (upper.actualBottom + spacing) = b := by
      rw [← hadjoins]
      exact hb
    simp only [restackBelow, hplace, ih hbelow hrest]

/-- Bands that close up to each other, each at its place, are laid out already. -/
theorem restackBands_eq_self {spacing : ℚ} {bands : List (Band ℚ)}
    (hchain : bands.IsChain (Band.Adjoins spacing))
    (hplaced : ∀ b ∈ bands, b.placeAt b.top = b) : restackBands spacing bands = bands := by
  cases bands with
  | nil => rfl
  | cons b rest =>
    obtain ⟨hb, hrest⟩ := List.forall_mem_cons.mp hplaced
    simp only [restackBands, hb, restackBelow_eq_self hchain hrest]

/-- A band that was placed is at its place. -/
theorem placeAt_top_of_mem_restackBands {spacing : ℚ} {bands : List (Band ℚ)} :
    ∀ b ∈ restackBands spacing bands, b.placeAt b.top = b := by
  intro b hb
  obtain ⟨old, top, rfl⟩ := exists_placeAt_of_mem_restackBands b hb
  refine Band.placeAt_top (old.upright_placeAt top) ?_
  rw [Band.objects_placeAt]
  exact List.forall_mem_map.mpr fun c _ => Control.aboveFloors_normalize _

/-- **Laying out makes a contiguous stack of any bands**, with gaps, overlaps and inverted bands
among them. The first band keeps its top, and every other one begins one spacing below the boundary
of the band before it. All heights stay, both notes of every lower boundary agree, and the controls
at the floors of the geometry go along with their bands and stay as they are. Bands that are laid
out are not changed by laying them out again. -/
theorem restackBands_contiguous (spacing : ℚ) (bands : List (Band ℚ)) :
    let after := restackBands spacing bands
    after.head?.map (·.top) = bands.head?.map (·.top) ∧
    after.IsChain (fun upper lower => lower.top = upper.actualBottom + spacing) ∧
    List.Forall₂ Band.IsRelaid bands after ∧
    restackBands spacing after = after := by
  intro after
  refine ⟨?_, isChain_restackBands spacing bands,
    forall₂_restackBands (fun b _ => b.isRelaid_placeAt) spacing,
    restackBands_eq_self (isChain_restackBands spacing bands) placeAt_top_of_mem_restackBands⟩
  cases bands with
  | nil => rfl
  | cons b rest => exact congrArg some (b.top_placeAt b.top)

/-- An inverted band has no height, and is upright afterwards. -/
example :
    let bands : List (Band ℚ) := [.ofHeight "h" "Header" .header 5 50,
      { Band.ofHeight "d" "Detail" .detail 90 30 with actualBottom := 80 },
      .ofHeight "s" "Summary" .summary 20 10]
    (restackBands 2 bands).map (fun b => (b.top, b.actualBottom, b.bottom)) =
      [(5, 55, 55), (57, 57, 57), (59, 69, 69)] := by
  decide +kernel

end BandedReport
