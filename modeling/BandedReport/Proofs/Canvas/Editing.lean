import Mathlib.Data.List.Forall2
import BandedReport.Canvas.Boundary
import BandedReport.Canvas.Clipboard
import BandedReport.Canvas.Stacking
import BandedReport.Proofs.Canvas.Revision

/-!
# Editing sessions

A design is edited one operation at a time. Most operations rewrite controls where they stand:
those on a selection, those on the boundaries of bands and those on the stacking order. Three do
not: a control is moved to another band, controls are removed, copies are pasted.

* `Rewrite`, `Edit` and `EditSession` are the operations and the sessions made of them;
* `Settles` says that every control stays in its place under its identifier, and is as it was or
  has been brought to the floors of the geometry;
* `Rewrite.settles` proves this of every operation that rewrites in place.
-/

namespace BandedReport

variable {κ : Type} [Coordinate κ]

/-! ## §1 Sessions -/

/-- A change of a single control. -/
inductive Change (κ : Type) where
  | translate (dx dy : κ)
  | resize (handle : ResizeHandle) (dx dy : κ)

def Change.apply (c : Control κ) : Change κ → Control κ
  | .translate dx dy => c.translate dx dy
  | .resize handle dx dy => c.resize handle dx dy

/-- Change referenced controls, each on its own and as it was before all the changes. -/
def changeObjects (bands : List (Band κ)) (changes : List (ObjectRef × Change κ)) :
    List (Band κ) :=
  replaceObjects bands (changes.flatMap fun (target, change) =>
    (resolve bands [target]).map fun s =>
      ⟨s.bandIndex, s.objectIndex, change.apply s.object⟩)

/-- An operation that leaves every control in its band. Bands are given by their index; an index
without a band changes nothing. -/
inductive Rewrite (κ : Type) where
  | align (selection : List ObjectRef) (alignment : Alignment)
  | distribute (selection : List ObjectRef) (axis : Axis)
  | sameSize (selection : List ObjectRef) (dimension : SizeDimension)
  | move (selection : List ObjectRef) (dx dy : κ)
  | change (changes : List (ObjectRef × Change κ))
  | resizeBand (index : Nat) (newBottom spacing : κ)
  | restack (spacing : κ)
  | reorder (index : Nat) (dragged target : String)
  | bringToFront (index : Nat) (id : String)
  | sendToBack (index : Nat) (id : String)

def Rewrite.apply (bands : List (Band κ)) : Rewrite κ → List (Band κ)
  | .align selection alignment => BandedReport.align bands selection alignment
  | .distribute selection axis => BandedReport.distribute bands selection axis
  | .sameSize selection dimension => BandedReport.sameSize bands selection dimension
  | .move selection dx dy => moveSelection bands selection dx dy
  | .change changes => changeObjects bands changes
  | .resizeBand index newBottom spacing => BandedReport.resizeBand bands index newBottom spacing
  | .restack spacing => restackBands spacing bands
  | .reorder index dragged target =>
    bands.modify index fun band => BandedReport.reorder band dragged target
  | .bringToFront index id => bands.modify index fun band => BandedReport.bringToFront band id
  | .sendToBack index id => bands.modify index fun band => BandedReport.sendToBack band id

/-- An operation of an editing session. -/
inductive Edit (κ : Type) where
  | rewrite (rewrite : Rewrite κ)
  | moveToBand (target : ObjectRef) (bandId : String)
  | remove (selection : List ObjectRef)
  | paste (index : Nat) (objects : List (Control κ)) (dx dy : κ)

/-- The bands of a design, and the source of the identifiers of what is pasted into them. -/
structure EditSession (κ σ : Type) where
  bands : List (Band κ)
  ids : σ

namespace EditSession

variable {σ : Type}

/-- The session after an operation. -/
def apply (gen : IdGenerator σ) (s : EditSession κ σ) : Edit κ → EditSession κ σ
  | .rewrite rewrite => { s with bands := rewrite.apply s.bands }
  | .moveToBand target bandId => { s with bands := BandedReport.moveToBand s.bands target bandId }
  | .remove selection => { s with bands := removeObjects s.bands selection }
  | .paste index objects dx dy =>
    match s.bands[index]? with
    | none => s
    | some band =>
      let (band, ids) := pasteObjects gen s.ids band objects dx dy
      ⟨s.bands.set index band, ids⟩

/-- The session after operations, one after the other. -/
def run (gen : IdGenerator σ) (s : EditSession κ σ) (edits : List (Edit κ)) : EditSession κ σ :=
  edits.foldl (apply gen) s

theorem run_append (gen : IdGenerator σ) (s : EditSession κ σ) (edits more : List (Edit κ)) :
    s.run gen (edits ++ more) = (s.run gen edits).run gen more :=
  List.foldl_append

end EditSession

/-- What can be done on the design surface: an operation, or a step of the gesture that drags the
boundary of a band. -/
inductive Action (κ : Type) where
  | edit (edit : Edit κ)
  | press (index : Nat) (y : κ)
  | pointerMove (y spacing : κ)
  | release (y spacing : κ)
  | cancel

/-- An editing session and the gesture that may be under way in it. -/
structure Surface (κ σ : Type) where
  session : EditSession κ σ
  drag : DragState κ

namespace Surface

variable {σ : Type}

/-- A surface on which no boundary is dragged. -/
def begin (bands : List (Band κ)) (ids : σ) : Surface κ σ := ⟨⟨bands, ids⟩, .idle⟩

/-- Show the bands that a step of the gesture gives, if it gives any. -/
def display (s : Surface κ σ) (bands : Option (List (Band κ))) (drag : DragState κ) :
    Surface κ σ :=
  ⟨{ s.session with bands := bands.getD s.session.bands }, drag⟩

/-- The surface after an action. A gesture shows the bands of every position of the pointer. -/
def apply (gen : IdGenerator σ) (s : Surface κ σ) : Action κ → Surface κ σ
  | .edit e => { s with session := s.session.apply gen e }
  | .press index y => { s with drag := .press s.session.bands index y }
  | .pointerMove y spacing => s.display (s.drag.pointerMove y spacing) s.drag
  | .release y spacing => s.display (s.drag.release y spacing).1 (s.drag.release y spacing).2
  | .cancel => s.display s.drag.cancel.1 s.drag.cancel.2

/-- The surface after actions, one after the other. -/
def run (gen : IdGenerator σ) (s : Surface κ σ) (actions : List (Action κ)) : Surface κ σ :=
  actions.foldl (apply gen) s

end Surface

/-! ## §2 Settling -/

/-- The second band is the first with its controls in their places, as they were or brought to
the floors. -/
def Band.Settles (b after : Band κ) : Prop :=
  after.outline = b.outline ∧ Normalizes b.objects after.objects

/-- The second list of bands is the first with its controls in their places, as they were or
brought to the floors. -/
structure Settles (bands after : List (Band κ)) : Prop where
  outline_eq : outline after = outline bands
  normalizes : Normalizes (allObjects bands) (allObjects after)

theorem Band.Settles.refl (b : Band κ) : b.Settles b := ⟨rfl, .refl _⟩

/-- A band settles when every control is kept or replaced by a normalized one of its identifier. -/
theorem Band.Settles.of_map {b after : Band κ} {f : Control κ → Control κ}
    (hid : after.id = b.id) (hobjects : after.objects = b.objects.map f)
    (hf : ∀ c, (f c).id = c.id ∧ (f c = c ∨ ∃ d : Control κ, f c = d.normalize)) :
    b.Settles after := by
  constructor
  · -- An object is told in the outline by its identifier alone.
    have hids : (fun c => (f c).id) = fun c : Control κ => c.id := funext fun c => (hf c).1
    simp [Band.outline, hid, hobjects, Function.comp_def, hids]
  · -- Every control comes from one of the old ones, as it was or normalized.
    intro c hc
    rw [hobjects] at hc
    obtain ⟨old, hold, rfl⟩ := List.mem_map.mp hc
    rcases (hf old).2 with heq | hnormal
    · rw [heq]
      exact .inl hold
    · exact .inr hnormal

theorem Settles.of_forall₂ {bands after : List (Band κ)}
    (h : List.Forall₂ Band.Settles bands after) : Settles bands after := by
  induction h with
  | nil => exact ⟨rfl, List.forall_mem_nil _⟩
  | @cons b b' bs bs' hb _ ih =>
    constructor
    · show b'.outline :: outline bs' = b.outline :: outline bs
      rw [hb.1, ih.outline_eq]
    · -- A control stands in the first band or in one of the others, before and after.
      intro c hc
      simp only [allObjects, List.flatMap_cons, List.mem_append] at hc ⊢
      rcases hc with hc | hc
      · rcases hb.2 c hc with hc | hc
        · exact .inl (.inl hc)
        · exact .inr hc
      · rcases ih.normalizes c hc with hc | hc
        · exact .inl (.inr hc)
        · exact .inr hc

theorem Revised.settles {bands after : List (Band κ)} (h : Revised bands after) :
    Settles bands after :=
  ⟨h.outline_eq, h.normalizes⟩

private theorem forall₂_settles_refl (bands : List (Band κ)) :
    List.Forall₂ Band.Settles bands bands :=
  List.forall₂_same.mpr fun b _ => .refl b

private theorem forall₂_settles_map {f : Band κ → Band κ} (hf : ∀ b : Band κ, b.Settles (f b))
    (bands : List (Band κ)) : List.Forall₂ Band.Settles bands (bands.map f) :=
  List.forall₂_map_right_iff.mpr (List.forall₂_same.mpr fun b _ => hf b)

theorem Settles.modify {f : Band κ → Band κ} (hf : ∀ b : Band κ, b.Settles (f b))
    (bands : List (Band κ)) (index : Nat) : Settles bands (bands.modify index f) := by
  apply Settles.of_forall₂
  induction bands generalizing index with
  | nil => simp
  | cons b bs ih =>
    cases index with
    | zero => exact .cons (hf b) (forall₂_settles_refl bs)
    | succ index => exact .cons (.refl b) (ih index)

/-! ## §3 Operations that rewrite in place -/

theorem changeObjects_revised (bands : List (Band κ)) (changes : List (ObjectRef × Change κ)) :
    Revised bands (changeObjects bands changes) := by
  refine ⟨_, rfl, fun u hu => ?_⟩
  obtain ⟨⟨target, change⟩, -, hu⟩ := List.mem_flatMap.mp hu
  obtain ⟨s, hs, rfl⟩ := List.mem_map.mp hu
  apply (isIn_of_mem_resolve hs).revises
  cases change with
  | translate dx dy => exact s.object.translate_revises dx dy
  | resize handle dx dy => exact s.object.resize_revises handle dx dy

theorem Band.settles_shift (b : Band κ) (dy : κ) : b.Settles (b.shift dy) :=
  .of_map rfl rfl fun _ => ⟨rfl, .inr ⟨_, rfl⟩⟩

theorem Band.settles_placeAt (b : Band κ) (top : κ) : b.Settles (b.placeAt top) := by
  unfold Band.placeAt
  dsimp only
  split
  · exact .of_map rfl rfl fun _ => ⟨rfl, .inr ⟨_, rfl⟩⟩
  · -- The controls are shifted first, and brought to the floors a second time.
    exact .of_map rfl (List.map_map ..) fun _ => ⟨rfl, .inr ⟨_, rfl⟩⟩

theorem resizeBand_settles (bands : List (Band κ)) (index : Nat) (newBottom spacing : κ) :
    Settles bands (resizeBand bands index newBottom spacing) := by
  apply Settles.of_forall₂
  unfold resizeBand
  split
  · exact forall₂_settles_refl bands
  · rename_i band hband
    obtain ⟨hindex, hband⟩ := List.getElem?_eq_some_iff.mp hband
    -- The bands above the boundary, its band, and the bands below.
    have hparts : bands = bands.take index ++ band :: bands.drop (index + 1) := by
      rw [← hband, List.getElem_cons_drop, List.take_append_drop]
    -- Only the controls of the bands below are touched, and only if they move at all.
    have hbelow (change : κ) (below : List (Band κ)) : List.Forall₂ Band.Settles below
        (if change == Coordinate.ofNat 0 then below else below.map (·.shift change)) := by
      split
      · exact forall₂_settles_refl below
      · exact forall₂_settles_map (fun b => b.settles_shift change) below
    conv => arg 2; rw [hparts]
    exact List.rel_append (forall₂_settles_refl _) (.cons ⟨rfl, .refl _⟩ (hbelow _ _))

theorem forall₂_restackBelow {R : Band κ → Band κ → Prop} {bands : List (Band κ)}
    (h : ∀ b ∈ bands, ∀ top, R b (b.placeAt top)) (boundary spacing : κ) :
    List.Forall₂ R bands (restackBelow boundary spacing bands) := by
  induction bands generalizing boundary with
  | nil => exact .nil
  | cons band rest ih =>
    obtain ⟨hband, hrest⟩ := List.forall_mem_cons.mp h
    exact .cons (hband _) (ih hrest _)

/-- Laying bands out places each of them somewhere. -/
theorem forall₂_restackBands {R : Band κ → Band κ → Prop} {bands : List (Band κ)}
    (h : ∀ b ∈ bands, ∀ top, R b (b.placeAt top)) (spacing : κ) :
    List.Forall₂ R bands (restackBands spacing bands) := by
  -- The first band is placed at its own top, the others below the boundaries that result.
  cases bands with
  | nil => exact .nil
  | cons band rest =>
    obtain ⟨hband, hrest⟩ := List.forall_mem_cons.mp h
    exact .cons (hband _) (forall₂_restackBelow hrest _ spacing)

theorem restackBands_settles (spacing : κ) (bands : List (Band κ)) :
    Settles bands (restackBands spacing bands) :=
  .of_forall₂ (forall₂_restackBands (fun band _ => band.settles_placeAt) spacing)

theorem assignDense_settles (band : Band κ) (order : List String) :
    band.Settles (assignDense band order) := by
  -- Identifiers that are not in the order keep their controls as they are.
  refine .of_map rfl rfl fun c => ?_
  split
  · exact ⟨rfl, .inr ⟨_, rfl⟩⟩
  · exact ⟨rfl, .inl rfl⟩

theorem moveInOrder_settles (band : Band κ) (id : String) (place : Nat → Nat) :
    band.Settles (moveInOrder band id place) := by
  unfold moveInOrder
  dsimp only
  split
  · exact .refl band
  · exact assignDense_settles band _

theorem reorder_settles (band : Band κ) (dragged target : String) :
    band.Settles (reorder band dragged target) := by
  unfold reorder
  split
  · exact .refl band
  · exact moveInOrder_settles band dragged _

/-- An operation that rewrites in place keeps every identifier in its place, and what it leaves
is as it was or has been brought to the floors. -/
theorem Rewrite.settles (bands : List (Band κ)) (r : Rewrite κ) :
    Settles bands (r.apply bands) := by
  cases r with
  | align selection alignment => exact (align_revised bands selection alignment).settles
  | distribute selection axis => exact (distribute_revised bands selection axis).settles
  | sameSize selection dimension => exact (sameSize_revised bands selection dimension).settles
  | move selection dx dy => exact (moveSelection_revised bands selection dx dy).settles
  | change changes => exact (changeObjects_revised bands changes).settles
  | resizeBand index newBottom spacing => exact resizeBand_settles bands index newBottom spacing
  | restack spacing => exact restackBands_settles spacing bands
  | reorder index dragged target =>
    exact .modify (fun band => reorder_settles band dragged target) bands index
  | bringToFront index id =>
    exact .modify (fun band => moveInOrder_settles band id _) bands index
  | sendToBack index id =>
    exact .modify (fun band => moveInOrder_settles band id _) bands index

end BandedReport
