import BandedReport.Proofs.Canvas.Editing
import BandedReport.Proofs.Canvas.Identifiers
import BandedReport.Proofs.Counterparts
import BandedReport.Proofs.Decimal.Order

/-!
# The floors of the geometry

On a surface drawn in doubles, every control has finite coordinates where a box needs them, boxes
are at least twenty wide and high, borders and strokes are not negative, and places in the stacking
order begin at one. No operation and no gesture leads below these floors, whatever numbers it is
given: each leaves a control as it is or normalizes it last.

* `Control.Floored` are the floors; `Control.floored_iff` says that they are what normalizing keeps;
* `EditSession.apply_normalizes` says what an operation does to controls, for any coordinates;
* `Surface.run_floored` says that the floors hold however long a surface is worked on.
-/

namespace BandedReport

open Coordinate (finiteOr)

/-! ## §1 Floors of numbers -/

/-- A finite number that is not below a floor. -/
def AtLeast (floor : Nat) (x : Float) : Prop := x.isFinite = true ∧ Float.ofNat floor ≤ x

instance (floor : Nat) (x : Float) : Decidable (AtLeast floor x) :=
  inferInstanceAs (Decidable (_ ∧ _))

theorem isFinite_finiteOr (x : Float) {default : Float} (h : default.isFinite = true) :
    (finiteOr x default).isFinite = true := by
  unfold finiteOr
  split
  · assumption
  · exact h

theorem finiteOr_eq_self {x : Float} (h : x.isFinite = true) (default : Float) :
    finiteOr x default = x :=
  if_pos h

theorem atLeast_larger {floor : Nat} (hfloor : (Float.ofNat floor).isFinite = true) {x : Float}
    (hx : x.isFinite = true) : AtLeast floor (larger x (Float.ofNat floor)) := by
  unfold larger
  -- A finite number is equal to itself, so the comparison decides.
  rw [if_pos (float_beq_self hx)]
  split
  · exact ⟨hfloor, float_le_refl hfloor⟩
  · rename_i hlt
    exact ⟨hx, (float_not_lt_iff hx hfloor).mp hlt⟩

theorem larger_eq_self {floor : Nat} (hfloor : (Float.ofNat floor).isFinite = true) {x : Float}
    (hx : AtLeast floor x) : larger x (Float.ofNat floor) = x := by
  unfold larger
  rw [if_pos (float_beq_self hx.1), if_neg ((float_not_lt_iff hx.1 hfloor).mpr hx.2)]

private theorem isFinite_zero : (Float.ofNat 0).isFinite = true := by decide +kernel

private theorem isFinite_minControlSize : (Float.ofNat minControlSize).isFinite = true := by
  decide +kernel

theorem atLeast_flooredSize (x : Float) : AtLeast minControlSize (flooredSize x) :=
  atLeast_larger isFinite_minControlSize (isFinite_finiteOr x isFinite_minControlSize)

theorem atLeast_flooredWidth (x : Float) : AtLeast 0 (flooredWidth x) :=
  atLeast_larger isFinite_zero (isFinite_finiteOr x isFinite_zero)

/-- Above a floor only a number that is not finite is brought to it. -/
theorem atLeast_finiteOr {floor : Nat} (hfloor : (Float.ofNat floor).isFinite = true) {x : Float}
    (hx : Float.ofNat floor ≤ x) : AtLeast floor (finiteOr x (Float.ofNat floor)) := by
  unfold finiteOr
  split
  · exact ⟨‹_›, hx⟩
  · exact ⟨hfloor, float_le_refl hfloor⟩

theorem flooredSize_eq_finiteOr {x : Float} (h : Float.ofNat minControlSize ≤ x) :
    flooredSize x = finiteOr x (Float.ofNat minControlSize) :=
  larger_eq_self isFinite_minControlSize (atLeast_finiteOr isFinite_minControlSize h)

theorem flooredWidth_eq_finiteOr {x : Float} (h : Float.ofNat 0 ≤ x) :
    flooredWidth x = finiteOr x (Float.ofNat 0) :=
  larger_eq_self isFinite_zero (atLeast_finiteOr isFinite_zero h)

theorem flooredSize_eq_self {x : Float} (h : AtLeast minControlSize x) : flooredSize x = x := by
  rw [flooredSize_eq_finiteOr h.2, finiteOr_eq_self h.1]

theorem flooredWidth_eq_self {x : Float} (h : AtLeast 0 x) : flooredWidth x = x := by
  rw [flooredWidth_eq_finiteOr h.2, finiteOr_eq_self h.1]

/-! ## §2 Floors of controls -/

/-- The floors of a box and of a line. -/
def Body.Floored : Body Float → Prop
  | .box frame border _ =>
    frame.x.isFinite = true ∧ frame.y.isFinite = true ∧
      AtLeast minControlSize frame.width ∧ AtLeast minControlSize frame.height ∧
      AtLeast 0 border.width
  | .line l => AtLeast 0 l.strokeWidth

/-- The floors of a control. -/
def Control.Floored (c : Control Float) : Prop := minZIndex ≤ c.zIndex ∧ c.body.Floored

instance : DecidablePred Body.Floored
  | .box frame border _ => inferInstanceAs (Decidable (frame.x.isFinite = true ∧
      frame.y.isFinite = true ∧ AtLeast minControlSize frame.width ∧
      AtLeast minControlSize frame.height ∧ AtLeast 0 border.width))
  | .line l => inferInstanceAs (Decidable (AtLeast 0 l.strokeWidth))

instance (c : Control Float) : Decidable c.Floored := inferInstanceAs (Decidable (_ ∧ _))

theorem Body.floored_normalize (b : Body Float) : b.normalize.Floored := by
  cases b with
  | box frame border content =>
    exact ⟨isFinite_finiteOr _ isFinite_zero, isFinite_finiteOr _ isFinite_zero,
      atLeast_flooredSize _, atLeast_flooredSize _, atLeast_flooredWidth _⟩
  | line l => exact atLeast_flooredWidth _

theorem Body.Floored.normalize_eq {b : Body Float} (h : b.Floored) : b.normalize = b := by
  cases b with
  | box frame border content =>
    obtain ⟨hx, hy, hwidth, hheight, hborder⟩ := h
    simp only [Body.normalize, finiteOr_eq_self hx, finiteOr_eq_self hy,
      flooredSize_eq_self hwidth, flooredSize_eq_self hheight, flooredWidth_eq_self hborder]
  | line l => simp only [Body.normalize, flooredWidth_eq_self h]

theorem Control.floored_normalize (c : Control Float) : c.normalize.Floored :=
  ⟨Int.le_max_right _ _, c.body.floored_normalize⟩

/-- The floors hold exactly where normalizing changes nothing. -/
theorem Control.floored_iff (c : Control Float) : c.Floored ↔ c.normalize = c := by
  constructor
  · intro h
    unfold Control.normalize
    rw [Int.max_eq_left h.1, h.2.normalize_eq]
  · intro h
    rw [← h]
    exact c.floored_normalize

/-- A copy is normalized twice, and the second time changes nothing. -/
theorem Control.body_copy (c : Control Float) (id : String) (zIndex : Int) (dx dy : Float) :
    (c.copy id zIndex dx dy).body = (c.body.shift dx dy).normalize :=
  (Body.floored_normalize _).normalize_eq

/-! ## §3 Operations -/

section Operations

variable {κ : Type} [Coordinate κ]

theorem normalizes_modify {f : Band κ → Band κ}
    (hf : ∀ b : Band κ, Normalizes b.objects (f b).objects) (bands : List (Band κ))
    (index : Nat) : Normalizes (allObjects bands) (allObjects (bands.modify index f)) := by
  intro c hc
  rcases mem_allObjects_modify hc with hc | ⟨b, hb, hc⟩
  · exact .inl hc
  · rcases hf b c hc with hc | hnormal
    · exact .inl (mem_allObjects.mpr ⟨b, hb, hc⟩)
    · exact .inr hnormal

theorem moveToBand_normalizes (bands : List (Band κ)) (target : ObjectRef) (bandId : String) :
    Normalizes (allObjects bands) (allObjects (moveToBand bands target bandId)) := by
  unfold moveToBand
  split
  · -- A control that is not found, or is in its band already, is not moved.
    split
    · exact .refl _
    · split
      · exact .refl _
      · -- Taking a control out adds none, and what is put in is normalized.
        refine (normalizes_modify (fun b c hc => .inl ?_) bands _).trans
          (normalizes_modify (fun b c hc => ?_) _ _)
        · exact List.mem_of_mem_eraseIdx hc
        · rcases List.mem_append.mp hc with hc | hc
          · exact .inl hc
          · exact .inr ⟨_, List.mem_singleton.mp hc⟩
  · exact .refl _

theorem removeObjects_normalizes (bands : List (Band κ)) (selection : List ObjectRef) :
    Normalizes (allObjects bands) (allObjects (removeObjects bands selection)) := by
  intro c hc
  obtain ⟨b, hb, hc⟩ := mem_allObjects.mp hc
  obtain ⟨old, hold, rfl⟩ := List.mem_map.mp hb
  exact .inl (mem_allObjects.mpr ⟨old, hold, List.mem_of_mem_filter hc⟩)

variable {σ : Type}

theorem copies_normalized (gen : IdGenerator σ) (base lowest : Int) (dx dy : κ) (s : σ)
    (objects : List (Control κ)) :
    ∀ c ∈ (copies gen base lowest dx dy s objects).1, ∃ d : Control κ, c = d.normalize :=
  forall_mem_of_forall₂ (forall₂_copies gen base lowest dx dy s objects)
    fun _ _ _ hcopy => ⟨_, hcopy⟩

/-- Every operation leaves controls as they are or normalizes them. -/
theorem EditSession.apply_normalizes (gen : IdGenerator σ) (s : EditSession κ σ) (e : Edit κ) :
    Normalizes (allObjects s.bands) (allObjects (s.apply gen e).bands) := by
  -- Each edit normalizes what it changes; only pasting adds controls.
  cases e with
  | rewrite r => exact (r.settles s.bands).normalizes
  | moveToBand target bandId => exact moveToBand_normalizes s.bands target bandId
  | remove selection => exact removeObjects_normalizes s.bands selection
  | paste index objects dx dy =>
    unfold EditSession.apply
    dsimp only
    split
    · exact .refl _
    · rename_i band hband
      intro c hc
      obtain ⟨b, hb, hc⟩ := mem_allObjects.mp hc
      -- Only the band that is pasted into is exchanged, and copies are put behind what it has.
      rcases List.mem_or_eq_of_mem_set hb with hb | rfl
      · exact .inl (mem_allObjects.mpr ⟨b, hb, hc⟩)
      · rcases List.mem_append.mp hc with hc | hc
        · exact .inl (mem_allObjects.mpr ⟨band, List.mem_of_getElem? hband, hc⟩)
        · exact .inr (copies_normalized gen _ _ dx dy s.ids objects c hc)

end Operations

/-! ## §4 Surfaces -/

/-- All controls are at the floors or above. -/
def AllFloored (bands : List (Band Float)) : Prop := ∀ c ∈ allObjects bands, c.Floored

instance : DecidablePred AllFloored := fun bands =>
  inferInstanceAs (Decidable (∀ c ∈ allObjects bands, c.Floored))

theorem AllFloored.of_normalizes {bands after : List (Band Float)} (h : AllFloored bands)
    (hnormalizes : Normalizes (allObjects bands) (allObjects after)) : AllFloored after := by
  intro c hc
  rcases hnormalizes c hc with hc | ⟨d, rfl⟩
  · exact h c hc
  · exact d.floored_normalize

/-- The bands that a gesture goes back to are at the floors or above. -/
def DragState.Floored : DragState Float → Prop
  | .idle => True
  | .dragging drag => AllFloored drag.snapshot

namespace Surface

variable {σ : Type}

/-- The floors hold for the bands of a surface and for those that a gesture began with. -/
structure Floored (s : Surface Float σ) : Prop where
  bands : AllFloored s.session.bands
  drag : s.drag.Floored

theorem Floored.display {s : Surface Float σ} (hs : s.Floored) {bands : Option (List (Band Float))}
    (hbands : ∀ b, bands = some b → AllFloored b) {drag : DragState Float} (hdrag : drag.Floored) :
    (s.display bands drag).Floored := by
  refine ⟨?_, hdrag⟩
  cases bands with
  | none => exact hs.bands
  | some b => exact hbands b rfl

end Surface

namespace DragState

theorem floored_press {bands : List (Band Float)} (h : AllFloored bands) (index : Nat)
    (y : Float) : (press bands index y).Floored := by
  unfold press BoundaryDrag.begin?
  split
  · rename_i drag hdrag
    -- A drag that begins remembers the bands as they are.
    split at hdrag
    · cases hdrag
      exact h
    · cases hdrag
  · trivial

theorem Floored.pointerMove {s : DragState Float} (hs : s.Floored) (y spacing : Float) :
    ∀ bands, s.pointerMove y spacing = some bands → AllFloored bands := by
  intro bands hbands
  cases s with
  | idle => cases hbands
  | dragging drag =>
    cases hbands
    exact AllFloored.of_normalizes hs (resizeBand_settles drag.snapshot _ _ spacing).normalizes

theorem Floored.cancel {s : DragState Float} (hs : s.Floored) :
    (∀ bands, s.cancel.1 = some bands → AllFloored bands) ∧ s.cancel.2.Floored := by
  cases s with
  | idle => exact ⟨fun _ h => (Option.some_ne_none _ h.symm).elim, trivial⟩
  | dragging drag => exact ⟨fun _ h => Option.some.inj h ▸ hs, trivial⟩

end DragState

namespace Surface

variable {σ : Type}

theorem Floored.apply {s : Surface Float σ} (hs : s.Floored) (gen : IdGenerator σ)
    (a : Action Float) : (s.apply gen a).Floored := by
  cases a with
  | edit e => exact ⟨hs.bands.of_normalizes (s.session.apply_normalizes gen e), hs.drag⟩
  | press index y => exact ⟨hs.bands, DragState.floored_press hs.bands index y⟩
  | pointerMove y spacing => exact hs.display (hs.drag.pointerMove y spacing) hs.drag
  | release y spacing => exact hs.display (hs.drag.pointerMove y spacing) trivial
  | cancel => exact hs.display hs.drag.cancel.1 hs.drag.cancel.2

theorem Floored.run {s : Surface Float σ} (hs : s.Floored) (gen : IdGenerator σ)
    (actions : List (Action Float)) : (s.run gen actions).Floored := by
  induction actions generalizing s with
  | nil => exact hs
  | cons a as ih => exact ih (hs.apply gen a)

/-- However long a surface is worked on, by whatever operations and gestures with whatever numbers,
all controls stay at the floors or above; and there normalizing changes nothing. -/
theorem run_floored (gen : IdGenerator σ) {bands : List (Band Float)} (hbands : AllFloored bands)
    (ids : σ) (actions : List (Action Float)) :
    AllFloored ((begin bands ids).run gen actions).session.bands ∧
      ∀ c : Control Float, c.Floored ↔ c.normalize = c := by
  have hstart : (begin bands ids).Floored := ⟨hbands, trivial⟩
  exact ⟨(hstart.run gen actions).bands, Control.floored_iff⟩

private def boxAndLine : List (Band Float) :=
  [{ Band.ofHeight "h" "Header" .header 0 50 with
      objects :=
        [.ofContent "box" ⟨10, 10, 30, 30⟩ (.text "box"), .ofLine "line" (.thin 0 0 9 0)] }]

private def missing : Float := 0 / 0

private def infinite : Float := 1 / 0

/-- A box that is too small, nowhere on the surface, with a negative border, below all others. -/
private def unfloored : Control Float :=
  ⟨"low", -3, true,
    .box ⟨missing, infinite, -5, missing⟩ ⟨-1, none, .solid⟩ (.shape .ellipse none)⟩

private def wildActions : List (Action Float) :=
  [.edit (.rewrite (.move [⟨"h", "box"⟩, ⟨"h", "line"⟩] infinite missing)),
    .edit (.paste 0 [unfloored] missing 0), .press 0 infinite, .pointerMove missing 0,
    .edit (.rewrite (.change [(⟨"h", "box"⟩, .resize .topLeft 1000 missing)])), .cancel,
    .edit (.rewrite (.resizeBand 0 missing infinite))]

theorem run_floored_wildActions :
    let after := (begin boxAndLine (.ofStem "obj")).run SequentialIds.generator wildActions
    AllFloored boxAndLine ∧ ¬ unfloored.Floored ∧
    objectIds after.session.bands = ["box", "line", "obj1"] ∧ AllFloored after.session.bands :=
  have hbands : AllFloored boxAndLine := by decide +kernel
  ⟨hbands, by decide +kernel, by decide +kernel,
    (run_floored SequentialIds.generator hbands (.ofStem "obj") wildActions).1⟩

end Surface

end BandedReport
