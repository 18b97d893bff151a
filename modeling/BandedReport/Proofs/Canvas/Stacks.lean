import BandedReport.Proofs.Canvas.Editing
import BandedReport.Proofs.Canvas.Exact
import BandedReport.Proofs.Counterparts

/-!
# Stacks of bands

The bands of a design form a stack: none is inverted, and each keeps a spacing from the one above
it. Dragging a boundary, moving one at once and laying the bands out anew lead from stacks to
stacks, and the previews of a drag are stacks as well. What is below a dragged boundary moves as
one piece.

* `Stacked` are the stacks, `RigidBelow` says that bands moved as one piece;
* `resizeBand_eq` is what a moved boundary does, in terms of the distance by which it moved;
* `BoundarySession.run_stacked` is about whole sessions of gestures.
-/

namespace BandedReport

/-! ## §1 Stacks -/

/-- The band is not inverted, and both notes of its lower boundary agree. -/
structure Band.Upright (b : Band ℚ) : Prop where
  top_le : b.top ≤ b.actualBottom
  bottom_eq : b.bottom = b.actualBottom

/-- The lower band keeps the spacing from the upper one. -/
def Band.Clears (spacing : ℚ) (upper lower : Band ℚ) : Prop :=
  upper.actualBottom + spacing ≤ lower.top

/-- The lower band is as far from the upper one as the spacing demands, and no further. -/
def Band.Adjoins (spacing : ℚ) (upper lower : Band ℚ) : Prop :=
  lower.top = upper.actualBottom + spacing

theorem Band.Adjoins.clears {spacing : ℚ} {upper lower : Band ℚ}
    (h : upper.Adjoins spacing lower) : upper.Clears spacing lower :=
  le_of_eq h.symm

theorem Band.upright_ofHeight (id name : String) (kind : BandKind) (top height : ℚ) :
    (Band.ofHeight id name kind top height).Upright := by
  constructor
  · simp [ofHeight]
  · rfl

/-- Every band is upright and keeps the spacing from the one before it. -/
structure Stacked (spacing : ℚ) (bands : List (Band ℚ)) : Prop where
  upright : ∀ b ∈ bands, b.Upright
  clears : bands.IsChain (Band.Clears spacing)

/-- A stack is a stack above a band, the band, and a stack below it, with the spacing between
them. -/
theorem stacked_append_cons {spacing : ℚ} {above below : List (Band ℚ)} {band : Band ℚ} :
    Stacked spacing (above ++ band :: below) ↔
      Stacked spacing above ∧ band.Upright ∧ (∀ b ∈ above.getLast?, b.Clears spacing band) ∧
        (∀ b ∈ below.head?, band.Clears spacing b) ∧ Stacked spacing below := by
  constructor
  · -- Being upright is a matter of each band, clearing one of neighbours.
    rintro ⟨hupright, hclears⟩
    rw [List.forall_mem_append, List.forall_mem_cons] at hupright
    rw [List.isChain_append, List.isChain_cons] at hclears
    obtain ⟨habove, hself, hbelow⟩ := hupright
    obtain ⟨hclearsAbove, ⟨hnext, hclearsBelow⟩, hprevious⟩ := hclears
    exact ⟨⟨habove, hclearsAbove⟩, hself, fun b hb => hprevious b hb band rfl, hnext,
      ⟨hbelow, hclearsBelow⟩⟩
  · -- The three parts are put together at the band between.
    rintro ⟨habove, hself, hprevious, hnext, hbelow⟩
    constructor
    · rw [List.forall_mem_append, List.forall_mem_cons]
      exact ⟨habove.upright, hself, hbelow.upright⟩
    · rw [List.isChain_append, List.isChain_cons]
      refine ⟨habove.clears, ⟨hnext, hbelow.clears⟩, ?_⟩
      rintro b hb _ ⟨⟩
      exact hprevious b hb

/-! ## §2 Moving together -/

/-- Shift a band, unless the distance is zero: then the band stays as it is. -/
def Band.follow (dy : ℚ) (b : Band ℚ) : Band ℚ := if dy == 0 then b else b.shift dy

namespace Band

variable {dy spacing : ℚ} {b c : Band ℚ}

@[simp] theorem top_follow : (b.follow dy).top = b.top + dy := by
  unfold follow
  split
  · rename_i hzero
    rw [eq_of_beq hzero, add_zero]
  · rfl

@[simp] theorem actualBottom_follow : (b.follow dy).actualBottom = b.actualBottom + dy := by
  unfold follow
  split
  · rename_i hzero
    rw [eq_of_beq hzero, add_zero]
  · rfl

theorem Upright.follow (h : b.Upright) : (b.follow dy).Upright := by
  constructor
  · simpa using h.top_le
  · -- A band that does not move keeps its notes; one that moves gets them from one another.
    unfold Band.follow
    split
    · exact h.bottom_eq
    · rfl

theorem Clears.follow (h : b.Clears spacing c) : (b.follow dy).Clears spacing (c.follow dy) := by
  unfold Clears at *
  simp only [top_follow, actualBottom_follow]
  linarith

theorem height_eq (b : Band ℚ) : b.height = max (b.actualBottom - b.top) 0 := by
  simp [height]

@[simp] theorem height_follow : (b.follow dy).height = b.height := by
  simp [height_eq]

end Band

/-- A stack that follows as a whole stays a stack. -/
theorem Stacked.follow {spacing : ℚ} {bands : List (Band ℚ)} (h : Stacked spacing bands) (dy : ℚ) :
    Stacked spacing (bands.map (Band.follow dy)) := by
  constructor
  · exact List.forall_mem_map.mpr fun b hb => (h.upright b hb).follow
  · rw [List.isChain_map]
    exact h.clears.imp fun _ _ => Band.Clears.follow

/-- The distances between the boundary of each band and the top of the next one. -/
def gaps (bands : List (Band ℚ)) : List ℚ :=
  bands.zipWith (fun upper lower => lower.top - upper.actualBottom) bands.tail

/-- Below a boundary that moves by a distance, with bands that follow, the gaps stay. -/
theorem gaps_follow {dy : ℚ} {b c : Band ℚ} (h : c.actualBottom = b.actualBottom + dy)
    (below : List (Band ℚ)) : gaps (c :: below.map (Band.follow dy)) = gaps (b :: below) := by
  induction below generalizing b c with
  | nil => rfl
  | cons next rest ih =>
    -- The gap below the boundary stays, and so does the boundary of the next band.
    have hgap : (next.follow dy).top - c.actualBottom = next.top - b.actualBottom := by
      rw [h, Band.top_follow]
      ring
    have hrest : gaps (next.follow dy :: rest.map (Band.follow dy)) = gaps (next :: rest) :=
      ih Band.actualBottom_follow
    show (_ - _) :: gaps (next.follow dy :: rest.map (Band.follow dy)) = (_ - _) :: gaps _
    rw [hgap, hrest]

/-- The bands below a boundary keep their heights, and all gaps from the boundary on stay. -/
structure RigidBelow (index : Nat) (before after : List (Band ℚ)) : Prop where
  length_eq : after.length = before.length
  heights_eq : (after.drop (index + 1)).map Band.height = (before.drop (index + 1)).map Band.height
  gaps_eq : gaps (after.drop index) = gaps (before.drop index)

/-! ## §3 Moving a boundary -/

theorem eq_take_cons_drop {bands : List (Band ℚ)} {index : Nat} {band : Band ℚ}
    (h : bands[index]? = some band) :
    bands = bands.take index ++ band :: bands.drop (index + 1) := by
  obtain ⟨hindex, rfl⟩ := List.getElem?_eq_some_iff.mp h
  rw [List.getElem_cons_drop, List.take_append_drop]

/-- The band before a band is the last of those that stand above it. -/
private theorem getElem?_pred_length (above : List (Band ℚ)) (rest : List (Band ℚ)) :
    (if above.length == 0 then none else (above ++ rest)[above.length - 1]?) = above.getLast? := by
  cases above with
  | nil => rfl
  | cons b bs =>
    rw [if_neg (by simp), List.getElem?_append_left (by simp), List.getLast?_eq_getElem?]

/-- A moved boundary comes to lie where it is asked for, or as low as the bands above it demand;
the bands below follow by the distance by which it moved. -/
theorem resizeBand_append_cons (above below : List (Band ℚ)) (band : Band ℚ)
    (newBottom spacing : ℚ) :
    let bottom := max newBottom (minBottom above.getLast? band spacing)
    resizeBand (above ++ band :: below) above.length newBottom spacing =
      above ++ { band with actualBottom := bottom, bottom := bottom } ::
        below.map (Band.follow (bottom - band.actualBottom)) := by
  -- The band is found at the length of what stands above it.
  have hband : (above ++ band :: below)[above.length]? = some band := by simp
  have hbelow : (above ++ band :: below).drop (above.length + 1) = below := by
    rw [← List.drop_drop, List.drop_left, List.drop_one, List.tail_cons]
  -- Bands that follow by nothing are left as they are, one by one or all at once.
  have hfollow (dy : ℚ) :
      (if dy == 0 then below else below.map (·.shift dy)) = below.map (Band.follow dy) := by
    unfold Band.follow
    split
    · exact (List.map_id' below).symm
    · rfl
  simp only [resizeBand, hband, getElem?_pred_length, hbelow, List.take_left, Exact.finiteOr_eq,
    Exact.larger_eq_max, Exact.ofNat_zero, hfollow]

/-- A moved boundary comes to lie somewhere, but not above the top of its band nor closer than the
spacing to the boundary before it; the bands below follow by the distance by which it moved. -/
theorem resizeBand_eq {bands : List (Band ℚ)} {index : Nat} {band : Band ℚ}
    (h : bands[index]? = some band) (newBottom spacing : ℚ) :
    ∃ bottom, band.top ≤ bottom ∧
      (∀ previous ∈ (bands.take index).getLast?, previous.actualBottom + spacing ≤ bottom) ∧
      resizeBand bands index newBottom spacing =
        bands.take index ++ { band with actualBottom := bottom, bottom := bottom } ::
          (bands.drop (index + 1)).map (Band.follow (bottom - band.actualBottom)) := by
  obtain ⟨hindex, -⟩ := List.getElem?_eq_some_iff.mp h
  have hlength : (bands.take index).length = index := List.length_take_of_le (Nat.le_of_lt hindex)
  have hresized := resizeBand_append_cons (bands.take index) (bands.drop (index + 1)) band
    newBottom spacing
  rw [← eq_take_cons_drop h, hlength] at hresized
  refine ⟨_, ?_, ?_, hresized⟩
  · -- The boundary stops at the top of its own band, and below the band above it.
    apply le_max_of_le_right
    cases (bands.take index).getLast? with
    | none => exact le_refl _
    | some previous => simp [minBottom]
  · intro previous hprevious
    rw [hprevious]
    apply le_max_of_le_right
    simp [minBottom]

/-- Moving a boundary leads from a stack to a stack. -/
theorem Stacked.resizeBand {spacing : ℚ} {bands : List (Band ℚ)} (h : Stacked spacing bands)
    (index : Nat) (newBottom : ℚ) :
    Stacked spacing (resizeBand bands index newBottom spacing) := by
  cases hband : bands[index]? with
  | none =>
    simp only [BandedReport.resizeBand, hband]
    exact h
  | some band =>
    obtain ⟨bottom, htop, hprevious, heq⟩ := resizeBand_eq hband newBottom spacing
    rw [eq_take_cons_drop hband, stacked_append_cons] at h
    obtain ⟨habove, -, habovePrevious, hnext, hbelow⟩ := h
    rw [heq, stacked_append_cons]
    refine ⟨habove, ⟨htop, rfl⟩, habovePrevious, ?_, hbelow.follow _⟩
    -- The next band follows the boundary, so it is as far from it as before.
    intro next hmem
    obtain ⟨old, hold, rfl⟩ : ∃ old ∈ (bands.drop (index + 1)).head?, old.follow _ = next := by
      simpa using hmem
    have hclears := hnext old hold
    unfold Band.Clears at *
    simp only [Band.top_follow]
    linarith

/-- Whatever is below a moved boundary moves as one piece. -/
theorem rigidBelow_resizeBand {bands : List (Band ℚ)} {index : Nat} (hindex : index < bands.length)
    (newBottom spacing : ℚ) :
    RigidBelow index bands (resizeBand bands index newBottom spacing) := by
  obtain ⟨bottom, -, -, heq⟩ :=
    resizeBand_eq (List.getElem?_eq_getElem hindex) newBottom spacing
  have hdrop : bands.drop index = bands[index] :: bands.drop (index + 1) :=
    List.drop_eq_getElem_cons hindex
  have htake : (bands.take index).length = index := List.length_take_of_le (Nat.le_of_lt hindex)
  rw [heq]
  constructor
  · -- As many bands as before: the ones above, one, and the ones below.
    simp only [List.length_append, List.length_cons, List.length_map, List.length_drop, htake]
    omega
  · -- Behind the bands above the boundary stands the resized band, and then those below.
    have hbelow : ∀ resized rest,
        (bands.take index ++ resized :: rest).drop (index + 1) = rest := by
      intro resized rest
      rw [← List.drop_drop, List.drop_left' htake, List.drop_one, List.tail_cons]
    rw [hbelow, List.map_map]
    exact List.map_congr_left fun b _ => Band.height_follow
  · -- Gaps are kept by what moves together.
    rw [List.drop_left' htake, hdrop]
    apply gaps_follow
    simp

/-! ## §4 Laying bands out -/

namespace Band

variable (b : Band ℚ) (top : ℚ)

@[simp] theorem top_placeAt : (b.placeAt top).top = top := by
  -- A band that is not shifted is at its place.
  unfold placeAt
  dsimp only
  split
  · rename_i hzero
    have hdy : top - b.top = 0 := by simpa using hzero
    show b.top = top
    linarith
  · show b.top + (top - b.top) = top
    ring

@[simp] theorem actualBottom_placeAt : (b.placeAt top).actualBottom = top + b.height :=
  congrArg (· + b.height) (b.top_placeAt top)

/-- A band that is placed has its height, which is not negative, below its top. -/
theorem upright_placeAt : (b.placeAt top).Upright := by
  have hheight : 0 ≤ b.height := by simp [height_eq]
  constructor
  · rw [top_placeAt, actualBottom_placeAt]
    linarith
  · rfl

end Band

/-- Whatever is laid out is a band that was placed. -/
theorem exists_placeAt_of_mem_restackBands {spacing : ℚ} {bands : List (Band ℚ)} :
    ∀ b ∈ restackBands spacing bands, ∃ old top, b = Band.placeAt old top :=
  forall_mem_of_forall₂
    (forall₂_restackBands (R := fun old b => ∃ top, b = old.placeAt top)
      (fun _ _ top => ⟨top, rfl⟩) spacing)
    fun old _ _ h => ⟨old, h⟩

/-- Bands that are laid out below a boundary close up to it and to each other. -/
theorem isChain_restackBelow (spacing : ℚ) (upper : Band ℚ) (bands : List (Band ℚ)) :
    (upper :: restackBelow upper.actualBottom spacing bands).IsChain (Band.Adjoins spacing) := by
  -- Each band is placed below the one before it, which takes the part of `upper` for the rest.
  induction bands generalizing upper with
  | nil => exact List.isChain_singleton _
  | cons b rest ih => exact List.isChain_cons_cons.mpr ⟨b.top_placeAt _, ih _⟩

/-- Bands that are laid out close up to each other. -/
theorem isChain_restackBands (spacing : ℚ) (bands : List (Band ℚ)) :
    (restackBands spacing bands).IsChain (Band.Adjoins spacing) := by
  cases bands with
  | nil => exact List.isChain_nil
  | cons b rest => exact isChain_restackBelow spacing (b.placeAt b.top) rest

/-- Laying bands out makes a stack of any bands. -/
theorem stacked_restackBands (spacing : ℚ) (bands : List (Band ℚ)) :
    Stacked spacing (restackBands spacing bands) where
  upright := by
    intro b hb
    obtain ⟨old, top, rfl⟩ := exists_placeAt_of_mem_restackBands b hb
    exact old.upright_placeAt top
  clears := (isChain_restackBands spacing bands).imp fun _ _ => Band.Adjoins.clears

/-! ## §5 Gestures -/

/-- What can be done to the boundaries of bands, with one spacing. -/
inductive BoundaryAction (κ : Type) where
  | press (index : Nat) (y : κ)
  | pointerMove (y : κ)
  | release (y : κ)
  | cancel
  | resize (index : Nat) (newBottom : κ)
  | restack

/-- Does a drag that is under way go on after the action? -/
def BoundaryAction.keepsDrag {κ : Type} : BoundaryAction κ → Bool
  | .pointerMove _ | .resize .. | .restack => true
  | .press .. | .release _ | .cancel => false

/-- The bands of a design, and the drag of a boundary that may be under way. -/
structure BoundarySession (κ : Type) where
  bands : List (Band κ)
  drag : DragState κ

namespace BoundarySession

section Definitions

variable {κ : Type} [Coordinate κ]

/-- A session in which no boundary is dragged. -/
def start (bands : List (Band κ)) : BoundarySession κ := ⟨bands, .idle⟩

/-- The bands that an action produces, if it produces any. -/
def produced (spacing : κ) (s : BoundarySession κ) : BoundaryAction κ → Option (List (Band κ))
  | .press .. => none
  | .pointerMove y => s.drag.pointerMove y spacing
  | .release y => (s.drag.release y spacing).1
  | .cancel => s.drag.cancel.1
  | .resize index newBottom => some (resizeBand s.bands index newBottom spacing)
  | .restack => some (restackBands spacing s.bands)

/-- The session after an action. What an action produces becomes the bands of the session; only
the bands for a position of the pointer are a preview. -/
def apply (spacing : κ) (s : BoundarySession κ) (a : BoundaryAction κ) : BoundarySession κ :=
  let bands := (s.produced spacing a).getD s.bands
  match a with
  | .press index y => { s with drag := .press s.bands index y }
  | .pointerMove _ => s
  | .release y => ⟨bands, (s.drag.release y spacing).2⟩
  | .cancel => ⟨bands, s.drag.cancel.2⟩
  | .resize .. | .restack => { s with bands }

/-- The session after actions, one after the other. -/
def run (spacing : κ) (s : BoundarySession κ) (actions : List (BoundaryAction κ)) :
    BoundarySession κ :=
  actions.foldl (apply spacing) s

end Definitions

variable {spacing : ℚ} {s : BoundarySession ℚ}

/-- The bands are a stack, and so are those that a drag goes back to. -/
structure IsStacked (spacing : ℚ) (s : BoundarySession ℚ) : Prop where
  bands : Stacked spacing s.bands
  snapshot : ∀ drag, s.drag = .dragging drag → Stacked spacing drag.snapshot

/-- Whatever is produced in a session of stacks is a stack. -/
theorem IsStacked.produced (hs : s.IsStacked spacing) {a : BoundaryAction ℚ}
    {after : List (Band ℚ)} (h : s.produced spacing a = some after) : Stacked spacing after := by
  cases a with
  | press index y => cases h
  | pointerMove y | release y =>
    -- While a boundary is dragged, every position gives the bands of the press, resized.
    cases hdrag : s.drag with
    | idle => simp [BoundarySession.produced, DragState.release, DragState.pointerMove, hdrag] at h
    | dragging drag =>
      obtain rfl : drag.step y spacing = after := by
        simpa [BoundarySession.produced, DragState.release, DragState.pointerMove, hdrag] using h
      exact (hs.snapshot drag hdrag).resizeBand _ _
  | cancel =>
    -- Cancelling shows the bands of the press.
    cases hdrag : s.drag with
    | idle => simp [BoundarySession.produced, DragState.cancel, hdrag] at h
    | dragging drag =>
      obtain rfl : drag.snapshot = after := by
        simpa [BoundarySession.produced, DragState.cancel, hdrag] using h
      exact hs.snapshot drag hdrag
  | resize index newBottom =>
    cases h
    exact hs.bands.resizeBand index newBottom
  | restack =>
    cases h
    exact stacked_restackBands spacing s.bands

/-- A boundary is dragged after a press exactly when there is a band of the index. -/
theorem drag_press (index : Nat) (y : ℚ) :
    (s.apply spacing (.press index y)).drag =
      if h : index < s.bands.length then .dragging ⟨index, y, s.bands, h⟩ else .idle := by
  by_cases h : index < s.bands.length
  · simp [apply, DragState.press, BoundaryDrag.begin?, h]
  · simp [apply, DragState.press, BoundaryDrag.begin?, h]

theorem drag_apply_of_keepsDrag {a : BoundaryAction ℚ} (h : a.keepsDrag = true) :
    (s.apply spacing a).drag = s.drag := by
  cases a with
  | pointerMove | resize | restack => rfl
  | press | release | cancel => cases h

/-- A step leads from stacks to stacks. -/
theorem IsStacked.apply (hs : s.IsStacked spacing) (a : BoundaryAction ℚ) :
    (s.apply spacing a).IsStacked spacing := by
  -- What is shown takes the place of the bands; if nothing is shown, they stay.
  have hbands : Stacked spacing ((s.produced spacing a).getD s.bands) := by
    cases hproduced : s.produced spacing a with
    | none => exact hs.bands
    | some after => exact hs.produced hproduced
  cases a with
  | press index y =>
    refine ⟨hs.bands, fun drag hdrag => ?_⟩
    -- A drag that begins goes back to the bands of the session.
    rw [drag_press] at hdrag
    split at hdrag
    · cases hdrag
      exact hs.bands
    · cases hdrag
  | pointerMove y => exact hs
  | release y => exact ⟨hbands, nofun⟩
  | cancel =>
    refine ⟨hbands, fun drag hdrag => ?_⟩
    -- Cancelling ends the drag.
    have hidle : s.drag.cancel.2 = .idle := by cases s.drag <;> rfl
    cases hidle.symm.trans hdrag
  | resize index newBottom => exact ⟨hbands, hs.snapshot⟩
  | restack => exact ⟨hbands, hs.snapshot⟩

/-- A run leads from stacks to stacks. -/
theorem IsStacked.run (hs : s.IsStacked spacing) (actions : List (BoundaryAction ℚ)) :
    (s.run spacing actions).IsStacked spacing := by
  induction actions generalizing s with
  | nil => exact hs
  | cons a rest ih => exact ih (hs.apply a)

/-- A drag that is under way began with a press that nothing has ended, and goes back to the bands
of that moment. -/
theorem exists_press {bands : List (Band ℚ)} {actions : List (BoundaryAction ℚ)}
    {drag : BoundaryDrag ℚ} (h : ((start bands).run spacing actions).drag = .dragging drag) :
    ∃ before during, actions = before ++ .press drag.bandIndex drag.startY :: during ∧
      (∀ a ∈ during, a.keepsDrag = true) ∧
      drag.snapshot = ((start bands).run spacing before).bands := by
  -- The last action has kept the drag, or begun it.
  induction actions using List.reverseRecOn with
  | nil => cases h
  | append_singleton actions a ih =>
    have hstep : (start bands).run spacing (actions ++ [a]) =
        ((start bands).run spacing actions).apply spacing a := List.foldl_concat ..
    rw [hstep] at h
    cases hkeeps : a.keepsDrag with
    | true =>
      -- The drag was there before, so the induction says where it began.
      rw [drag_apply_of_keepsDrag hkeeps] at h
      obtain ⟨before, during, rfl, hduring, hsnapshot⟩ := ih h
      refine ⟨before, during ++ [a], by simp, ?_, hsnapshot⟩
      exact List.forall_mem_append.mpr ⟨hduring, List.forall_mem_singleton.mpr hkeeps⟩
    | false =>
      cases a with
      | press index y =>
        -- The drag begins here, with the bands of this moment.
        rw [drag_press] at h
        split at h
        · cases h
          exact ⟨actions, [], rfl, List.forall_mem_nil _, rfl⟩
        · cases h
      | cancel =>
        -- Ending a drag leaves none.
        have hidle : ((start bands).run spacing actions).drag.cancel.2 = .idle := by
          cases ((start bands).run spacing actions).drag <;> rfl
        cases hidle.symm.trans h
      | release y => cases h
      | pointerMove | resize | restack => cases hkeeps

/-- **Stacks stay stacks.** In a session that begins with a stack, the bands are a stack at any
time, and whatever an action produces is a stack, previews included. A press begins a drag exactly
when there is a band of the index. While a boundary is dragged, the index of its band is one of the
bands to go back to, and these are the bands of the press with which the drag began; giving the drag
up produces exactly them, and any position of the pointer produces bands in which everything below
the boundary has moved as one piece. -/
theorem run_stacked {bands : List (Band ℚ)} (hbands : Stacked spacing bands)
    (actions : List (BoundaryAction ℚ)) :
    let s := (start bands).run spacing actions
    Stacked spacing s.bands ∧
      (∀ a after, s.produced spacing a = some after → Stacked spacing after) ∧
      (∀ index y, (s.apply spacing (.press index y)).drag.isDragging = true ↔
        index < s.bands.length) ∧
      ∀ drag, s.drag = .dragging drag →
        drag.bandIndex < drag.snapshot.length ∧
        (∃ before during, actions = before ++ .press drag.bandIndex drag.startY :: during ∧
          (∀ a ∈ during, a.keepsDrag = true) ∧
          drag.snapshot = ((start bands).run spacing before).bands) ∧
        s.produced spacing .cancel = some drag.snapshot ∧
        ∀ y, ∃ after, s.produced spacing (.pointerMove y) = some after ∧
          s.produced spacing (.release y) = some after ∧
          RigidBelow drag.bandIndex drag.snapshot after := by
  intro s
  -- A session begins without a drag, so all that was said of steps holds of the run.
  have hstart : (start bands).IsStacked spacing := ⟨hbands, nofun⟩
  have hs : s.IsStacked spacing := hstart.run actions
  refine ⟨hs.bands, fun a after => hs.produced, fun index y => ?_, fun drag hdrag => ?_⟩
  · -- A boundary is pressed where there is a band.
    rw [drag_press]
    split <;> simp_all [DragState.isDragging]
  · refine ⟨drag.bandIndex_lt, exists_press hdrag, ?_, fun y => ?_⟩
    · simp [produced, DragState.cancel, hdrag]
    · refine ⟨drag.step y spacing, ?_, ?_, rigidBelow_resizeBand drag.bandIndex_lt _ _⟩
      · simp [produced, DragState.pointerMove, hdrag]
      · simp [produced, DragState.release, DragState.pointerMove, hdrag]

private def threeBands : List (Band ℚ) :=
  [.ofHeight "h" "Header" .header 0 50, .ofHeight "d" "Detail" .detail 54 30,
    .ofHeight "s" "Summary" .summary 90 40]

private theorem stacked_threeBands : Stacked 4 threeBands := by
  constructor
  · intro b hb
    simp only [threeBands, List.mem_cons, List.not_mem_nil, or_false] at hb
    rcases hb with rfl | rfl | rfl <;> exact Band.upright_ofHeight ..
  · simp only [threeBands, List.isChain_cons_cons, List.isChain_singleton, and_true]
    constructor <;> norm_num [Band.Clears, Band.ofHeight]

/-- The boundary of the header is dragged, and meanwhile the detail band is resized at once. -/
private def crossing : List (BoundaryAction ℚ) :=
  [.press 7 0, .press 0 50, .pointerMove (-300), .resize 1 200, .pointerMove 75]

theorem run_stacked_crossing :
    let s := (start threeBands).run 4 crossing
    Stacked 4 threeBands ∧ Stacked 4 s.bands ∧ s.produced 4 .cancel = some threeBands ∧
      ∃ after, s.produced 4 (.release 75) = some after ∧ Stacked 4 after ∧ gaps after = [4, 6] := by
  intro s
  obtain ⟨hbands, hproduced, -, hdrags⟩ := run_stacked stacked_threeBands crossing
  have hdrag : s.drag = .dragging ⟨0, 50, threeBands, by decide⟩ := rfl
  obtain ⟨-, -, hcancel, hpositions⟩ := hdrags _ hdrag
  obtain ⟨after, -, hrelease, hrigid⟩ := hpositions 75
  refine ⟨stacked_threeBands, hbands, hcancel, after, hrelease, hproduced _ _ hrelease, ?_⟩
  have hgaps : gaps threeBands = [4, 6] := by
    norm_num [gaps, threeBands, Band.ofHeight]
  exact hrigid.gaps_eq.trans hgaps

end BoundarySession

end BandedReport
