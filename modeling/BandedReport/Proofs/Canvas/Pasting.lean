import BandedReport.Proofs.Canvas.Floors
import BandedReport.Proofs.Counterparts

/-!
# Pasting

Copies are put behind the controls of a band and come to lie above all of them, in the order among
each other that their originals have. Every copy has an identifier of its own and is the original at
an offset, brought to the floors: where the original is above these, nothing else changes but
numbers that are not finite.

* `Band.max?_zIndex` and `min?_zIndex` say what the highest and the lowest place are;
* `forall₂_zIndex_copies` says what place each copy gets;
* `Body.normalize_eq_settled` says what the floors do to a box or a line that is above them;
* `pasteObjects_stacks` is the result.
-/

namespace BandedReport

open Coordinate (finiteOr)

/-! ## §1 The highest and the lowest place -/

section Places

variable {κ : Type}

theorem Band.max?_zIndex {band : Band κ} (h : band.objects ≠ []) :
    (band.objects.map (·.zIndex)).max? = some band.maxZIndex := by
  unfold maxZIndex
  cases hobjects : band.objects with
  | nil => exact absurd hobjects h
  | cons c rest => rw [List.map_cons, List.max?_cons', List.foldl_map]

theorem min?_zIndex {objects : List (Control κ)} (h : objects ≠ []) :
    (objects.map (·.zIndex)).min? = some (lowestZIndex objects) := by
  unfold lowestZIndex
  cases objects with
  | nil => exact absurd rfl h
  | cons c rest => rw [List.map_cons, List.min?_cons', List.foldl_map]

theorem Band.zIndex_le_maxZIndex {band : Band κ} {c : Control κ} (h : c ∈ band.objects) :
    c.zIndex ≤ band.maxZIndex :=
  (List.max?_eq_some_iff.mp (max?_zIndex (List.ne_nil_of_mem h))).2 _ (List.mem_map_of_mem h)

theorem lowestZIndex_le {objects : List (Control κ)} {c : Control κ} (h : c ∈ objects) :
    lowestZIndex objects ≤ c.zIndex :=
  (List.min?_eq_some_iff.mp (min?_zIndex (List.ne_nil_of_mem h))).2 _ (List.mem_map_of_mem h)

/-- The highest place is not negative if a band is empty or has a place that is not. -/
theorem Band.zero_le_maxZIndex {band : Band κ}
    (h : band.objects = [] ∨ ∃ c ∈ band.objects, 0 ≤ c.zIndex) : 0 ≤ band.maxZIndex := by
  rcases h with hempty | ⟨c, hc, hz⟩
  · rw [maxZIndex, hempty]
    exact Int.le_refl 0
  · exact hz.trans (zIndex_le_maxZIndex hc)

end Places

/-! ## §2 The places of copies -/

section Copies

variable {κ σ : Type} [Coordinate κ] {base lowest : Int} {objects : List (Control κ)}

/-- If the base is not negative, no copy needs to be brought to the floor of places. -/
theorem forall₂_zIndex_copies (hbase : 0 ≤ base) (hlowest : ∀ c ∈ objects, lowest ≤ c.zIndex)
    (gen : IdGenerator σ) (dx dy : κ) (s : σ) :
    List.Forall₂ (fun c copy => copy.zIndex = base + 1 + (c.zIndex - lowest)) objects
      (copies gen base lowest dx dy s objects).1 := by
  induction objects generalizing s with
  | nil => exact .nil
  | cons c rest ih =>
    obtain ⟨hc, hrest⟩ := List.forall_mem_cons.mp hlowest
    have hfloor : minZIndex ≤ base + 1 + (c.zIndex - lowest) := by
      unfold minZIndex
      omega
    exact .cons (Int.max_eq_left hfloor) (ih hrest _)

end Copies

/-- Places that are all raised by one number compare as before. -/
theorem compare_zIndex_of_forall₂ {κ : Type} {base lowest : Int} {objects added : List (Control κ)}
    (h : List.Forall₂ (fun c copy => copy.zIndex = base + 1 + (c.zIndex - lowest)) objects added) :
    ∀ p ∈ objects.zip added, ∀ q ∈ objects.zip added,
      compare p.2.zIndex q.2.zIndex = compare p.1.zIndex q.1.zIndex := by
  intro p hp q hq
  have hplaces : ∀ p ∈ objects.zip added, p.2.zIndex = base + 1 + (p.1.zIndex - lowest) :=
    fun _ hp => (List.forall₂_iff_zip.mp h).2 hp
  have hmono : StrictMono fun z => base + 1 + (z - lowest) := by
    intro z z' hz
    dsimp only
    omega
  rw [hplaces p hp, hplaces q hq, ← cmp_eq_compare, ← cmp_eq_compare]
  exact hmono.cmp_map_eq p.1.zIndex q.1.zIndex

/-! ## §3 Boxes and lines above the floors -/

namespace Body

/-- The sizes and the border of a box and the stroke of a line are at their floors or above, finite
or not; a position may be any. -/
def SizeFloored : Body Float → Prop
  | box frame border _ =>
    Float.ofNat minControlSize ≤ frame.width ∧ Float.ofNat minControlSize ≤ frame.height ∧
      Float.ofNat 0 ≤ border.width
  | line l => Float.ofNat 0 ≤ l.strokeWidth

instance : DecidablePred SizeFloored
  | box frame border _ => inferInstanceAs (Decidable (Float.ofNat minControlSize ≤ frame.width ∧
      Float.ofNat minControlSize ≤ frame.height ∧ Float.ofNat 0 ≤ border.width))
  | line l => inferInstanceAs (Decidable (Float.ofNat 0 ≤ l.strokeWidth))

/-- The box or the line with zero for every number that should be finite and is not, and the least
size for a size. The endpoints of a line may be any. -/
def settled : Body Float → Body Float
  | box frame border content =>
    box
      ⟨finiteOr frame.x (Float.ofNat 0), finiteOr frame.y (Float.ofNat 0),
        finiteOr frame.width (Float.ofNat minControlSize),
        finiteOr frame.height (Float.ofNat minControlSize)⟩
      { border with width := finiteOr border.width (Float.ofNat 0) } content
  | line l => line { l with strokeWidth := finiteOr l.strokeWidth (Float.ofNat 0) }

/-- Above the floors only what is not finite is changed. -/
theorem normalize_eq_settled {b : Body Float} (h : b.SizeFloored) : b.normalize = b.settled := by
  cases b with
  | box frame border content =>
    obtain ⟨hwidth, hheight, hborder⟩ := h
    simp only [normalize, settled, flooredSize_eq_finiteOr hwidth, flooredSize_eq_finiteOr hheight,
      flooredWidth_eq_finiteOr hborder]
    rfl
  | line l => simp only [normalize, settled, flooredWidth_eq_finiteOr h]

/-- Wherever it is, a box or a line has the same sizes. -/
theorem SizeFloored.shift {b : Body Float} (h : b.SizeFloored) (dx dy : Float) :
    (b.shift dx dy).SizeFloored := by
  cases b <;> exact h

end Body

/-- The second control is a copy of the first one at an offset. -/
structure Control.PastedAs (dx dy : Float) (c c' : Control Float) : Prop where
  rest : c' = { c with id := c'.id, zIndex := c'.zIndex, body := c'.body }
  /-- If its sizes are above the floors, it is shifted, and a number that should be finite then and
  is not gets the value it has by default. -/
  settled : c.body.SizeFloored → c'.body = (c.body.shift dx dy).settled
  /-- It is only shifted if that leaves it at the floors. -/
  shifted : (c.body.shift dx dy).Floored → c'.body = c.body.shift dx dy

theorem Control.pastedAs_copy (c : Control Float) (id : String) (zIndex : Int) (dx dy : Float) :
    c.PastedAs dx dy (c.copy id zIndex dx dy) := by
  refine ⟨rfl, fun hsizes => ?_, fun hfloored => ?_⟩
  · rw [body_copy, Body.normalize_eq_settled (hsizes.shift dx dy)]
  · rw [body_copy, hfloored.normalize_eq]

/-! ## §4 Pasting -/

/-- **Pasting stacks on top and keeps order.** Let a band be empty or have a control whose place in
the stacking order is not negative, and let copies of any controls be pasted into it at any offset.
The old controls stay as they are and where they are, and behind them come the copies, one for each
control and in the same order. Every copy is above every old control, and any two copies compare in
their places as their originals do. The copy of a control whose sizes, border and stroke are at the
floors has another identifier and another place and is shifted by the offset, and else it differs
only in numbers of a box, or the stroke of a line, that are not finite and get the values they have
by default. The copies get the identifiers that the generator gives out, in this order. -/
theorem pasteObjects_stacks {σ : Type} (gen : IdGenerator σ) (s : σ) {band : Band Float}
    (hband : band.objects = [] ∨ ∃ c ∈ band.objects, 0 ≤ c.zIndex)
    (objects : List (Control Float)) (dx dy : Float) :
    ∃ added : List (Control Float),
      pasteObjects gen s band objects dx dy =
        ({ band with objects := band.objects ++ added }, gen.after s objects.length) ∧
      List.Forall₂ (Control.PastedAs dx dy) objects added ∧
      (∀ c ∈ band.objects, ∀ copy ∈ added, c.zIndex < copy.zIndex) ∧
      (∀ p ∈ objects.zip added, ∀ q ∈ objects.zip added,
        compare p.2.zIndex q.2.zIndex = compare p.1.zIndex q.1.zIndex) ∧
      added.map (·.id) = gen.drawn s objects.length := by
  -- The copies take the next identifiers, one for each of the objects.
  obtain ⟨hids, hstate⟩ :=
    map_id_copies gen band.maxZIndex (lowestZIndex objects) dx dy s objects
  have hcopies := forall₂_copies gen band.maxZIndex (lowestZIndex objects) dx dy s objects
  have hlowest : ∀ c ∈ objects, lowestZIndex objects ≤ c.zIndex := fun c hc => lowestZIndex_le hc
  -- Each copy is raised above the band by as much as it stood above the lowest object.
  have hplaces := forall₂_zIndex_copies (Band.zero_le_maxZIndex hband) hlowest gen dx dy s
  generalize hadded : copies gen band.maxZIndex (lowestZIndex objects) dx dy s objects = result
    at hids hstate hcopies hplaces
  refine ⟨result.1, ?_, ?_, ?_, compare_zIndex_of_forall₂ hplaces, hids⟩
  · rw [← hstate, pasteObjects, hadded]
  · refine hcopies.imp fun c copy hcopy => ?_
    rw [hcopy]
    exact c.pastedAs_copy _ _ dx dy
  · -- What was in the band is at most as high as its highest control.
    intro old hold
    refine forall_mem_of_forall₂ hplaces fun c hc copy hcopy => ?_
    have habove := Band.zIndex_le_maxZIndex hold
    have hraised := hlowest c hc
    omega

/-- The total is below the place that new controls get, the note far below it. -/
private def stacked : Band Float :=
  { Band.ofHeight "d" "Detail" .detail 0 100 with
    objects :=
      [{ Control.ofContent "total" ⟨0, 0, 60, 20⟩ (.text "Total") with zIndex := 4 },
        { Control.ofContent "note" ⟨0, 30, 60, 20⟩ (.text "Note") with zIndex := -2 }] }

private def ruling : Control Float :=
  { Control.ofLine "ruling" (.thin 0 0 9 0) with zIndex := 7 }

private def crest : Control Float :=
  { Control.ofContent "crest" ⟨10, 10, 30, 30⟩ (.image "seal.png") with zIndex := -3 }

private def pole : Control Float :=
  { Control.ofLine "pole" (.thin 0 0 0 9) with zIndex := -3 }

/-- The crest and the pole are below the floor of places. Their copies are at one place, above the
total, and the copy of the ruling is above them. -/
theorem pasteObjects_stacks_ruledCrest :
    (stacked.objects = [] ∨ ∃ c ∈ stacked.objects, 0 ≤ c.zIndex) ∧
    ∃ ruling' crest' pole' : Control Float,
      pasteObjects SequentialIds.generator (.ofStem "copy") stacked [ruling, crest, pole] 5 5 =
        ({ stacked with objects := stacked.objects ++ [ruling', crest', pole'] }, ⟨"copy", 4⟩) ∧
      [ruling'.id, crest'.id, pole'.id] = ["copy1", "copy2", "copy3"] ∧
      crest'.body = crest.body.shift 5 5 ∧
      4 < crest'.zIndex ∧ crest'.zIndex = pole'.zIndex ∧ crest'.zIndex < ruling'.zIndex := by
  have hband : stacked.objects = [] ∨ ∃ c ∈ stacked.objects, 0 ≤ c.zIndex :=
    .inr ⟨_, List.mem_cons_self, by decide⟩
  obtain ⟨added, hpasted, hcopies, habove, horder, hids⟩ :=
    pasteObjects_stacks SequentialIds.generator (.ofStem "copy") hband [ruling, crest, pole] 5 5
  -- Three objects have three copies, in the same order.
  obtain _ | @⟨_, ruling', _, _, -, _ | @⟨_, crest', _, _, hcrest, _ | @⟨_, pole', _, _, -, ⟨⟩⟩⟩⟩ :=
    hcopies
  refine ⟨hband, ruling', crest', pole', hpasted, hids.trans (by decide +kernel),
    hcrest.shifted (by decide +kernel), ?_, ?_, ?_⟩
  · exact habove _ List.mem_cons_self crest' (by simp)
  · exact compare_eq_iff_eq.mp (horder (crest, crest') (by simp) (pole, pole') (by simp))
  · exact compare_lt_iff_lt.mp (horder (crest, crest') (by simp) (ruling, ruling') (by simp))

private def bare : Band Float := .ofHeight "d" "Detail" .detail 40 40

/-- A box so far to the right that there is no number for twice its distance. -/
private def farRight : Control Float := .ofContent "box" ⟨1e308, 0, 40, 20⟩ (.text "far")

/-- The copy of the box is not the box at the offset, but at the left edge of the surface. -/
theorem pasteObjects_farRight :
    farRight.Floored ∧ farRight.body.SizeFloored ∧ bare.objects = [] ∧ ∃ copy,
      (pasteObjects SequentialIds.generator (.ofStem "copy") bare [farRight] 1e308 0).1.objects =
        [copy] ∧
      copy.body ≠ farRight.body.shift 1e308 0 ∧ copy.displayBox.x = 0 := by
  refine ⟨by decide +kernel, by decide +kernel, rfl, _, rfl, fun hbody => ?_, by decide +kernel⟩
  -- The copy is at the floors, while twice the distance is infinite.
  have hfloored : (farRight.copy "copy1" 1 1e308 0).Floored := Control.floored_normalize _
  have hnot : ¬ (farRight.body.shift 1e308 0).Floored := by decide +kernel
  exact hnot (hbody ▸ hfloored.2)

end BandedReport
