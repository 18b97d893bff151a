import BandedReport.Proofs.Design.Refusal

/-!
# Edited designs that load again

A design is saved with null for every double that is not finite, and then it does not load any
more. Normalizing keeps the coordinates of boxes finite, whatever they are moved by, but it leaves
the endpoints of lines as they are. So an operation that moves, resizes or pastes controls leaves a
design that loads again just if it gives no line an endpoint that is not finite.

* `Displacement` are the operations, `Displacement.bodies` is what they make of controls before
  these are brought to the floors;
* `Body.isPlaced_normalize_iff` says what normalizing does to coordinates;
* `Displacement.displaced` says what bands an operation leaves: the controls it does not touch, and
  normalized ones for those it does;
* `Design.ofText?_toText_displaced` says when the design that it leaves loads again.
-/

namespace BandedReport

open Json (ReadsBack)

/-! ## §1 Coordinates -/

namespace Body

/-- The coordinates of a box or a line: position and size, or both endpoints. -/
def coordinates : Body Float → List Float
  | box f _ _ => f.floats
  | line l => [l.x1, l.y1, l.x2, l.y2]

/-- The coordinates that no floor holds: the endpoints of a line. -/
def endpoints : Body Float → List Float
  | box .. => []
  | line l => [l.x1, l.y1, l.x2, l.y2]

/-- All coordinates are finite. -/
def IsPlaced (b : Body Float) : Prop := ∀ x ∈ b.coordinates, x.isFinite = true

instance : DecidablePred IsPlaced := fun b =>
  inferInstanceAs (Decidable (∀ x ∈ b.coordinates, x.isFinite = true))

theorem coordinates_subset_floats (b : Body Float) : b.coordinates ⊆ b.floats := by
  cases b with
  | box f border content => exact List.subset_append_left _ _
  | line l => simp [coordinates, floats, Line.floats]

/-- The floors leave endpoints as they are. -/
theorem endpoints_subset_floats_normalize (b : Body Float) : b.endpoints ⊆ b.normalize.floats := by
  cases b with
  | box f border content => exact List.nil_subset _
  | line l => simp [endpoints, normalize, floats, Line.floats]

/-- If the endpoints are finite, all doubles are when they have been brought to the floors. -/
theorem isFinite_of_mem_floats_normalize {b : Body Float}
    (h : ∀ x ∈ b.endpoints, x.isFinite = true) : ∀ x ∈ b.normalize.floats, x.isFinite = true := by
  have hfloored := b.floored_normalize
  cases b with
  | box f border content =>
    obtain ⟨hx, hy, hwidth, hheight, hborder⟩ := hfloored
    simp [normalize, floats, Frame.floats, Border.floats, hx, hy, hwidth.1, hheight.1, hborder.1]
  | line l =>
    have hstroke : AtLeast 0 (flooredWidth l.strokeWidth) := hfloored
    simp only [endpoints, List.forall_mem_cons] at h
    simp [normalize, floats, Line.floats, h, hstroke.1]

/-- At the floors a box is always placed, a line only if its endpoints were finite. -/
theorem isPlaced_normalize_iff (b : Body Float) :
    b.normalize.IsPlaced ↔ ∀ x ∈ b.endpoints, x.isFinite = true := by
  constructor
  · intro h
    cases b with
    | box f border content => exact List.forall_mem_nil _
    | line l => exact h
  · intro h x hx
    exact isFinite_of_mem_floats_normalize h x (coordinates_subset_floats _ hx)

end Body

/-! ## §2 Operations -/

/-- What a change makes of a box or a line before it is brought to the floors. -/
def Change.body (b : Body Float) : Change Float → Body Float
  | .translate dx dy => b.shift dx dy
  | .resize handle dx dy => b.drag handle dx dy

theorem Change.body_apply (c : Control Float) (change : Change Float) :
    (change.apply c).body = (change.body c.body).normalize := by
  cases change <;> rfl

/-- An operation that changes the coordinates of controls or pastes copies of them. -/
inductive Displacement where
  | change (target : ObjectRef) (change : Change Float)
  | move (selection : List ObjectRef) (dx dy : Float)
  | paste (index : Nat) (objects : List (Control Float)) (dx dy : Float)

namespace Displacement

/-- The operation as one of an editing session. -/
def edit : Displacement → Edit Float
  | change target alteration => .rewrite (.change [(target, alteration)])
  | move selection dx dy => .rewrite (.move selection dx dy)
  | paste index objects dx dy => .paste index objects dx dy

/-- What the operation makes of the controls it is about, before they are brought to the floors. -/
def bodies (bands : List (Band Float)) : Displacement → List (Body Float)
  | change target alteration => (resolve bands [target]).map fun s => alteration.body s.object.body
  | move selection dx dy => (resolve bands selection).map fun s => s.object.body.shift dx dy
  | paste index objects dx dy =>
    if index < bands.length then objects.map fun c => c.body.shift dx dy else []

/-- The endpoints that the operation gives to lines. -/
def endpoints (bands : List (Band Float)) (e : Displacement) : List Float :=
  (e.bodies bands).flatMap Body.endpoints

end Displacement

/-- Bands that came about by putting normalized boxes and lines into them, in place of others or
beside them. -/
structure Displaced (bodies : List (Body Float)) (bands after : List (Band Float)) : Prop where
  /-- The bands differ in their controls at most. -/
  emptied_eq : after.map Band.emptied = bands.map Band.emptied
  old_or_new : ∀ c ∈ allObjects after, c ∈ allObjects bands ∨ ∃ b ∈ bodies, c.body = b.normalize
  exists_new : ∀ b ∈ bodies, ∃ c ∈ allObjects after, c.body = b.normalize

theorem mem_allObjects_of_objectAt? {bands : List (Band Float)} {i j : Nat} {c : Control Float}
    (h : objectAt? bands i j = some c) : c ∈ allObjects bands :=
  Selected.IsIn.mem_allObjects (s := ⟨i, j, c⟩) h

/-- At a place that is updated stands what one of its updates put there. -/
theorem exists_update_at {bands : List (Band Float)} {updates : List (Update Float)}
    {u : Update Float} (hu : u ∈ updates) {c : Control Float}
    (hat : objectAt? bands u.bandIndex u.objectIndex = some c) :
    ∃ v ∈ updates, (v.bandIndex, v.objectIndex) = (u.bandIndex, u.objectIndex) ∧
      objectAt? (replaceObjects bands updates) u.bandIndex u.objectIndex = some v.object := by
  induction updates generalizing bands c with
  | nil => cases hu
  | cons first rest ih =>
    have hstep := objectAt?_replaceObject bands first u.bandIndex u.objectIndex
    rw [hat] at hstep
    rcases List.mem_cons.mp hu with rfl | hu
    · -- The first update puts its control there, unless a later one does so again.
      rw [if_pos rfl] at hstep
      obtain ⟨c', hc', rfl | ⟨v, hv, hplace, rfl⟩⟩ := @objectAt?_replaceObjects _ _ rest _ _ _ hstep
      · exact ⟨u, List.mem_cons_self, rfl, hc'⟩
      · exact ⟨v, List.mem_cons_of_mem _ hv, hplace, hc'⟩
    · -- The first update may have another place, but a control still stands at this one.
      obtain ⟨c', hc'⟩ : ∃ c', objectAt? (replaceObject bands first) u.bandIndex u.objectIndex =
          some c' := by
        rw [hstep]
        split <;> exact ⟨_, rfl⟩
      obtain ⟨v, hv, hplace, hat⟩ := ih hu hc'
      exact ⟨v, List.mem_cons_of_mem _ hv, hplace, hat⟩

/-- The update that puts a changed control back into its place. -/
def Change.update (change : Change Float) (s : Selected Float) : Update Float :=
  ⟨s.bandIndex, s.objectIndex, change.apply s.object⟩

/-- A selection whose controls are changed, each in its place. -/
theorem displaced_replaceObjects (bands : List (Band Float)) (selection : List ObjectRef)
    (change : Change Float) :
    Displaced ((resolve bands selection).map fun s => change.body s.object.body) bands
      (replaceObjects bands ((resolve bands selection).map change.update)) where
  emptied_eq := emptied_replaceObjects bands _
  old_or_new := by
    -- A control is one from before, or it comes from an update.
    intro c hc
    rcases mem_allObjects_replaceObjects hc with hc | ⟨u, hu, rfl⟩
    · exact .inl hc
    · obtain ⟨s, hs, rfl⟩ := List.mem_map.mp hu
      exact .inr ⟨_, List.mem_map_of_mem hs, change.body_apply s.object⟩
  exists_new := by
    intro b hb
    obtain ⟨s, hs, rfl⟩ := List.mem_map.mp hb
    have hstands : objectAt? bands s.bandIndex s.objectIndex = some s.object :=
      isIn_of_mem_resolve hs
    have hupdate := List.mem_map_of_mem (f := change.update) hs
    obtain ⟨v, hv, hplace, hat⟩ := exists_update_at hupdate hstands
    obtain ⟨t, ht, rfl⟩ := List.mem_map.mp hv
    -- At one place there is one control, however often it was selected.
    have hobject : t.object = s.object := by
      have ht : objectAt? bands t.bandIndex t.objectIndex = some t.object := isIn_of_mem_resolve ht
      obtain ⟨hband, hindex⟩ : t.bandIndex = s.bandIndex ∧ t.objectIndex = s.objectIndex :=
        Prod.mk.inj hplace
      rw [hband, hindex] at ht
      exact Option.some.inj (ht.symm.trans hstands)
    refine ⟨_, mem_allObjects_of_objectAt? hat, ?_⟩
    rw [Change.update, change.body_apply, hobject]

/-- The copies of controls are boxes and lines that are shifted and brought to the floors. -/
theorem map_body_copies {σ : Type} (gen : IdGenerator σ) (base lowest : Int) (dx dy : Float) (s : σ)
    (objects : List (Control Float)) :
    (copies gen base lowest dx dy s objects).1.map (·.body) =
      objects.map fun c => (c.body.shift dx dy).normalize := by
  have hcopies := forall₂_copies gen base lowest dx dy s objects
  refine map_eq_of_forall₂ (hcopies.imp fun c copy hcopy => ?_)
  rw [hcopy]
  exact c.body_copy _ _ dx dy

theorem emptied_set {bands : List (Band Float)} {index : Nat} {band after : Band Float}
    (hband : bands[index]? = some band) (hafter : after.emptied = band.emptied) :
    (bands.set index after).map Band.emptied = bands.map Band.emptied := by
  obtain ⟨hindex, rfl⟩ := List.getElem?_eq_some_iff.mp hband
  have hself := @List.set_getElem_self _ (bands.map Band.emptied) index (by simpa)
  rw [List.getElem_map] at hself
  rw [List.map_set, hafter, hself]

/-- Copies that are pasted behind the controls of a band. -/
theorem displaced_paste {σ : Type} (gen : IdGenerator σ) (s : EditSession Float σ) (index : Nat)
    (objects : List (Control Float)) (dx dy : Float) :
    Displaced ((Displacement.paste index objects dx dy).bodies s.bands) s.bands
      (s.apply gen (.paste index objects dx dy)).bands := by
  unfold EditSession.apply Displacement.bodies
  dsimp only
  -- Without the band nothing is pasted, and no body is new.
  cases hband : s.bands[index]? with
  | none =>
    have hindex : ¬ index < s.bands.length := by simpa using hband
    rw [if_neg hindex]
    exact ⟨rfl, fun c hc => .inl hc, List.forall_mem_nil _⟩
  | some band =>
    obtain ⟨hindex, -⟩ := List.getElem?_eq_some_iff.mp hband
    -- The copies have the bodies of the objects, moved and normalized.
    have hbodies := map_body_copies gen band.maxZIndex (lowestZIndex objects) dx dy s.ids objects
    generalize hadded : copies gen band.maxZIndex (lowestZIndex objects) dx dy s.ids objects = added
      at hbodies
    simp only [if_pos hindex, pasteObjects, hadded]
    refine ⟨emptied_set hband rfl, fun c hc => ?_, fun b hb => ?_⟩
    · -- A control of the new bands is from before, or it is a copy.
      obtain ⟨b, hb, hc⟩ := mem_allObjects.mp hc
      rcases List.mem_or_eq_of_mem_set hb with hb | rfl
      · exact .inl (mem_allObjects.mpr ⟨b, hb, hc⟩)
      · rcases List.mem_append.mp hc with hc | hc
        · exact .inl (mem_allObjects.mpr ⟨band, List.mem_of_getElem? hband, hc⟩)
        · have hbody : c.body ∈ added.1.map (·.body) := List.mem_map_of_mem hc
          rw [hbodies] at hbody
          obtain ⟨object, hobject, heq⟩ := List.mem_map.mp hbody
          exact .inr ⟨_, List.mem_map_of_mem hobject, heq.symm⟩
    · -- Each moved body is that of a copy.
      obtain ⟨object, hobject, rfl⟩ := List.mem_map.mp hb
      have hbody : (object.body.shift dx dy).normalize ∈ added.1.map (·.body) := by
        rw [hbodies]
        exact List.mem_map_of_mem hobject
      obtain ⟨c, hc, heq⟩ := List.mem_map.mp hbody
      refine ⟨c, mem_allObjects.mpr ⟨_, List.mem_set hindex _, ?_⟩, heq⟩
      exact List.mem_append_right _ hc

/-- What bands every operation leaves. -/
theorem Displacement.displaced {σ : Type} (gen : IdGenerator σ) (s : EditSession Float σ)
    (e : Displacement) : Displaced (e.bodies s.bands) s.bands (s.apply gen e.edit).bands := by
  cases e with
  | change target alteration =>
    have hone := displaced_replaceObjects s.bands [target] alteration
    have hchanges : (s.apply gen (edit (.change target alteration))).bands =
        replaceObjects s.bands ((resolve s.bands [target]).map alteration.update) := by
      simp [edit, EditSession.apply, Rewrite.apply, changeObjects]
      rfl
    rw [hchanges]
    exact hone
  | move selection dx dy => exact displaced_replaceObjects s.bands selection (.translate dx dy)
  | paste index objects dx dy => exact displaced_paste gen s index objects dx dy

/-! ## §3 Designs -/

namespace Displaced

variable {bodies : List (Body Float)} {bands after : List (Band Float)}
  (h : Displaced bodies bands after)
include h

/-- All controls are placed just if no line has got an endpoint that is not finite. -/
theorem forall_isPlaced_iff (hbands : ∀ c ∈ allObjects bands, c.body.IsPlaced) :
    (∀ c ∈ allObjects after, c.body.IsPlaced) ↔
      ∀ x ∈ bodies.flatMap Body.endpoints, x.isFinite = true := by
  constructor
  · -- An end of a line that is moved stands in the line that has come of it.
    intro hafter x hx
    obtain ⟨b, hb, hx⟩ := List.mem_flatMap.mp hx
    obtain ⟨c, hc, hbody⟩ := h.exists_new b hb
    have hplaced := hafter c hc
    rw [hbody] at hplaced
    exact b.isPlaced_normalize_iff.mp hplaced x hx
  · -- A control from before is placed, and a new one if its ends are finite.
    intro hfinite c hc
    rcases h.old_or_new c hc with hold | ⟨b, hb, hbody⟩
    · exact hbands c hold
    · rw [hbody]
      apply b.isPlaced_normalize_iff.mpr
      exact fun x hx => hfinite x (List.mem_flatMap.mpr ⟨b, hb, hx⟩)

/-- Boxes are placed in any case. -/
theorem isPlaced_of_box (hbands : ∀ c ∈ allObjects bands, c.body.IsPlaced) :
    ∀ c ∈ allObjects after, c.isLine = false → c.body.IsPlaced := by
  intro c hc hbox
  rcases h.old_or_new c hc with hold | ⟨b, -, hbody⟩
  · exact hbands c hold
  · rw [hbody]
    apply b.isPlaced_normalize_iff.mpr
    rw [Control.isLine, hbody] at hbox
    cases b with
    | box f border content => exact List.forall_mem_nil _
    | line l => cases hbox

/-- If no line has, all doubles of the bands are finite, if they were before. -/
theorem isFinite_of_mem_floats (hbands : ∀ b ∈ bands, ∀ x ∈ b.floats, x.isFinite = true)
    (hfinite : ∀ x ∈ bodies.flatMap Body.endpoints, x.isFinite = true) :
    ∀ b ∈ after, ∀ x ∈ b.floats, x.isFinite = true := by
  intro b hb x hx
  rcases List.mem_append.mp hx with hx | hx
  · -- The boundaries of the band are those of a band from before.
    have hempty : b.emptied ∈ bands.map Band.emptied := h.emptied_eq ▸ List.mem_map_of_mem hb
    obtain ⟨old, hold, heq⟩ := List.mem_map.mp hempty
    have hboundaries := congrArg (fun b : Band Float => [b.top, b.bottom, b.actualBottom]) heq
    dsimp only [Band.emptied] at hboundaries
    rw [← hboundaries] at hx
    exact hbands old hold x (List.mem_append_left _ hx)
  · -- A control is one from before, or its body is one that was moved.
    obtain ⟨c, hc, hx⟩ := List.mem_flatMap.mp hx
    rcases h.old_or_new c (mem_allObjects.mpr ⟨b, hb, hc⟩) with hold | ⟨body, hbody, heq⟩
    · obtain ⟨old, hold, hc⟩ := mem_allObjects.mp hold
      exact Band.forall_mem_objects (hbands old hold) c hc x hx
    · rw [heq] at hx
      refine Body.isFinite_of_mem_floats_normalize (fun y hy => hfinite y ?_) x hx
      exact List.mem_flatMap.mpr ⟨body, hbody, hy⟩

end Displaced

namespace Design

variable {σ : Type}

/-- The design after an operation on its bands. -/
def displaced (gen : IdGenerator σ) (ids : σ) (d : Design Float) (e : Displacement) :
    Design Float :=
  { d with bands := ((⟨d.bands, ids⟩ : EditSession Float σ).apply gen e.edit).bands }

variable (gen : IdGenerator σ) (ids : σ) {d : Design Float} (e : Displacement)

/-- If no line gets an endpoint that is not finite, all doubles stay finite. -/
theorem isFinite_displaced (hd : ∀ x ∈ d.floats, x.isFinite = true)
    (hfinite : ∀ x ∈ e.endpoints d.bands, x.isFinite = true) :
    ∀ x ∈ (d.displaced gen ids e).floats, x.isFinite = true := by
  obtain ⟨hbands, hsettings⟩ := forall_mem_bands hd
  have hdisplaced := e.displaced gen ⟨d.bands, ids⟩
  intro x hx
  rcases List.mem_append.mp hx with hx | hx
  · obtain ⟨b, hb, hx⟩ := List.mem_flatMap.mp hx
    exact hdisplaced.isFinite_of_mem_floats hbands hfinite b hb x hx
  · exact hsettings x hx

/-- If a line gets an endpoint that is not finite, the design does not load again. -/
theorem ofText?_toText_displaced_eq_none (hfits : (d.displaced gen ids e).Fits)
    (hnumbers : ∀ x ∈ (d.displaced gen ids e).floats, x.isFinite = true → ReadsBack x)
    {x : Float} (hx : x ∈ e.endpoints d.bands) (hmissing : x.isFinite = false) :
    ofText? (d.displaced gen ids e).toText = none := by
  obtain ⟨b, hb, hx⟩ := List.mem_flatMap.mp hx
  obtain ⟨c, hc, hbody⟩ := (e.displaced gen ⟨d.bands, ids⟩).exists_new b hb
  refine ofText?_toText_eq_none hfits hnumbers hc ?_ hmissing
  rw [hbody]
  exact b.endpoints_subset_floats_normalize hx

/-- A box stays placed whatever the operation is given, a line exactly if its endpoints stay finite;
and the design that the operation leaves is saved so that it loads again just if they all do. The
texts of its doubles and of its instant are taken to be read as what was written. -/
theorem ofText?_toText_displaced (hd : ∀ x ∈ d.floats, x.isFinite = true)
    (hfits : (d.displaced gen ids e).Fits)
    (hnumbers : ∀ x ∈ (d.displaced gen ids e).floats, x.isFinite = true → ReadsBack x)
    (hinstant : Timestamp.read? d.createdAt.toText = some d.createdAt) :
    let after := d.displaced gen ids e
    (∀ c ∈ allObjects after.bands, c.isLine = false → c.body.IsPlaced) ∧
      ((∀ c ∈ allObjects after.bands, c.body.IsPlaced) ↔
        ∀ x ∈ e.endpoints d.bands, x.isFinite = true) ∧
      ofText? after.toText =
        if (e.endpoints d.bands).all Float.isFinite then some after else none := by
  intro after
  have hdisplaced := e.displaced gen ⟨d.bands, ids⟩
  -- What is finite is placed, in particular all that was there before.
  have hplaced : ∀ c ∈ allObjects d.bands, c.body.IsPlaced := by
    intro c hc x hx
    obtain ⟨b, hb, hc⟩ := mem_allObjects.mp hc
    have hfloats := Band.forall_mem_objects ((forall_mem_bands hd).1 b hb) c hc
    exact hfloats x (c.body.coordinates_subset_floats hx)
  refine ⟨hdisplaced.isPlaced_of_box hplaced, hdisplaced.forall_isPlaced_iff hplaced, ?_⟩
  -- The text is written as a document, and read back field by field.
  by_cases hall : (e.endpoints d.bands).all Float.isFinite = true
  · rw [if_pos hall]
    have hfinite := isFinite_displaced gen ids e hd (List.all_eq_true.mp hall)
    have hfloats : ∀ x ∈ after.floats, ReadsBack x := fun x hx => hnumbers x hx (hfinite x hx)
    rw [ofText?, toText, Json.ofText?_pretty (writable_toJson hfits hfloats), Option.bind_some]
    exact ofJson?_toJson hfits hfloats hinstant
  · -- One end that is not finite is enough: it is written as a gap.
    rw [if_neg hall]
    simp only [List.all_eq_true, not_forall, Bool.not_eq_true] at hall
    obtain ⟨x, hx, hmissing⟩ := hall
    exact ofText?_toText_displaced_eq_none gen ids e hfits hnumbers hx hmissing

/-- A box and a line that begins far to the right. -/
private def farOut : Design Float where
  bands := [{ Band.ofHeight "d" "Detail" .detail 0 40 with
    objects :=
      [.ofContent "box" ⟨10, 10, 30, 30⟩ (.text "box"), .ofLine "line" (.thin 1e308 0 10 0)] }]
  version := "1.0"
  createdAt := ⟨⟨⟨2014, 5, 2, by decide, by decide⟩, TimeOfDay.midnight⟩⟩
  settings := .empty

/-- The box is moved by an infinite distance, and its design loads again. -/
private def boxMove : Displacement := .move [⟨"d", "box"⟩, ⟨"d", "box"⟩] (1 / 0) (0 / 0)

theorem ofText?_toText_displaced_boxMove :
    let after := farOut.displaced SequentialIds.generator (.ofStem "obj") boxMove
    (∀ x ∈ farOut.floats, x.isFinite = true) ∧ after.Fits ∧ ofText? after.toText = some after := by
  have hd : ∀ x ∈ farOut.floats, x.isFinite = true := by decide +kernel
  have hfits : (farOut.displaced SequentialIds.generator (.ofStem "obj") boxMove).Fits := by
    decide +kernel
  obtain ⟨-, -, htext⟩ := ofText?_toText_displaced SequentialIds.generator (.ofStem "obj") boxMove
    hd hfits (by decide +kernel) (by decide +kernel)
  have hend : (boxMove.endpoints farOut.bands).all Float.isFinite = true := by decide +kernel
  rw [if_pos hend] at htext
  exact ⟨hd, hfits, htext⟩

/-- The first endpoint of the line is dragged further to the right, by a finite distance. -/
private def lineDrag : Displacement := .change ⟨"d", "line"⟩ (.resize .lineStart 1e308 0)

/-- All doubles are finite, but not the endpoint of the line after it was dragged; then the design
does not load again. -/
theorem ofText?_toText_displaced_lineDrag :
    let after := farOut.displaced SequentialIds.generator (.ofStem "obj") lineDrag
    (∀ x ∈ farOut.floats, x.isFinite = true) ∧
      ¬ (∀ c ∈ allObjects after.bands, c.body.IsPlaced) ∧ ofText? after.toText = none := by
  have hfits : (farOut.displaced SequentialIds.generator (.ofStem "obj") lineDrag).Fits := by
    decide +kernel
  have hmissing : ∃ x ∈ lineDrag.endpoints farOut.bands, x.isFinite = false := by decide +kernel
  obtain ⟨x, hx, hmissing⟩ := hmissing
  refine ⟨by decide +kernel, by decide +kernel, ?_⟩
  exact ofText?_toText_displaced_eq_none SequentialIds.generator (.ofStem "obj") lineDrag hfits
    (by decide +kernel) hx hmissing

end Design

end BandedReport
