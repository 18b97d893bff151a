import BandedReport.Proofs.Print.Conservation

/-!
# Isolation of controls

A control can spoil nothing but itself. Of two designs that differ in what one box shows, the
reports have the same pages of the same rows, and bands of the same heights and backgrounds; and in
these all controls are the same but the instances of that box.

The two passes are run side by side. `Counted.Alike` relates what they come to and what they count,
and it is carried through the pass, from the text of one box to the report.
-/

namespace BandedReport

open Formula (Context Outcome)
open Printing (count)

/-! ## §1 Lists with one member exchanged -/

/-- The lists are the same but for one member at most, which has a related one in its place. -/
inductive SameButOne {α : Type} (R : α → α → Prop) : List α → List α → Prop where
  | same (l : List α) : SameButOne R l l
  | exchanged (before after : List α) {a b : α} : R a b →
      SameButOne R (before ++ a :: after) (before ++ b :: after)

namespace SameButOne

variable {α β : Type} {R : α → α → Prop} {l l' : List α}

theorem map {S : β → β → Prop} {f : α → β} (h : SameButOne R l l')
    (hf : ∀ a b, R a b → S (f a) (f b)) : SameButOne S (l.map f) (l'.map f) := by
  cases h with
  | same => exact .same _
  | exchanged before after hab =>
    rw [List.map_append, List.map_cons, List.map_append, List.map_cons]
    exact .exchanged _ _ (hf _ _ hab)

/-- A test that cannot tell the exchanged members apart keeps both or neither. -/
theorem filter {p : α → Bool} (h : SameButOne R l l') (hp : ∀ a b, R a b → p a = p b) :
    SameButOne R (l.filter p) (l'.filter p) := by
  cases h with
  | same => exact .same _
  | @exchanged before after a b hab =>
    rw [List.filter_append, List.filter_append, List.filter_cons, List.filter_cons, ← hp a b hab]
    cases p a with
    | true => exact .exchanged _ _ hab
    | false => exact .same _

theorem mapM_eq {m : Type → Type} [Monad m] [LawfulMonad m] {β : Type} {f : α → m β}
    (h : SameButOne R l l') (hf : ∀ a b, R a b → f a = f b) : l.mapM f = l'.mapM f := by
  cases h with
  | same => rfl
  | exchanged before after hab =>
    rw [List.mapM_append, List.mapM_append, List.mapM_cons, List.mapM_cons, hf _ _ hab]

/-- Member by member, the lists are the same or related. -/
theorem forall₂ (h : SameButOne R l l') : List.Forall₂ (fun a b => a = b ∨ R a b) l l' := by
  cases h with
  | same => exact List.forall₂_same.mpr fun _ _ => .inl rfl
  | exchanged before after hab =>
    have hsame : ∀ rest : List α, List.Forall₂ (fun a b => a = b ∨ R a b) rest rest :=
      fun rest => List.forall₂_same.mpr fun _ _ => .inl rfl
    exact List.rel_append (hsame before) (.cons (.inr hab) (hsame after))

/-- Sorting by a key that the exchanged members share puts them in the same place. -/
theorem mergeSort {key : α → Int} (h : SameButOne R l l')
    (hkey : ∀ a b, R a b → key a = key b) :
    SameButOne R (l.mergeSort fun x y => key x ≤ key y)
      (l'.mergeSort fun x y => key x ≤ key y) := by
  cases h with
  | same => exact .same _
  | @exchanged before after a b hab =>
    -- Both lists are sorted as one list of pairs, all of which but one are twins.
    let twins (rest : List α) : List (α × α) := rest.map fun x => (x, x)
    let pairs := twins before ++ (a, b) :: twins after
    have hpairs : ∀ pair ∈ pairs, key pair.1 = key pair.2 := by
      intro pair hpair
      simp only [pairs, twins, List.mem_append, List.mem_cons, List.mem_map] at hpair
      rcases hpair with ⟨x, -, rfl⟩ | rfl | ⟨x, -, rfl⟩
      · rfl
      · exact hkey a b hab
      · rfl
    let sorted := pairs.mergeSort fun x y => key x.1 ≤ key y.1
    have hfirst : sorted.map Prod.fst =
        (before ++ a :: after).mergeSort fun x y => key x ≤ key y := by
      have hmap : pairs.map Prod.fst = before ++ a :: after := by
        simp [pairs, twins, Function.comp_def]
      rw [List.map_mergeSort (s := fun x y => key x ≤ key y) fun _ _ _ _ => rfl, hmap]
    have hsecond : sorted.map Prod.snd =
        (before ++ b :: after).mergeSort fun x y => key x ≤ key y := by
      have hmap : pairs.map Prod.snd = before ++ b :: after := by
        simp [pairs, twins, Function.comp_def]
      rw [List.map_mergeSort (s := fun x y => key x ≤ key y) fun x hx y hy => by
        rw [hpairs x hx, hpairs y hy], hmap]
    -- The pair that is no twin stands once in the sorted list.
    have hperm : sorted.Perm pairs := List.mergeSort_perm _ _
    obtain ⟨lower, upper, hsplit⟩ := List.append_of_mem
      (hperm.mem_iff.mpr (List.mem_append_right _ List.mem_cons_self) : (a, b) ∈ sorted)
    have hrest : (lower ++ upper).Perm (twins before ++ twins after) := by
      have hcons := List.perm_middle.symm.trans ((hsplit ▸ hperm).trans List.perm_middle)
      exact hcons.cons_inv
    have htwin : ∀ pair ∈ lower ++ upper, pair.1 = pair.2 := by
      intro pair hpair
      rw [hrest.mem_iff, List.mem_append, List.mem_map, List.mem_map] at hpair
      rcases hpair with ⟨x, -, rfl⟩ | ⟨x, -, rfl⟩ <;> rfl
    have hlower : lower.map Prod.snd = lower.map Prod.fst :=
      List.map_congr_left fun x hx => (htwin x (List.mem_append_left _ hx)).symm
    have hupper : upper.map Prod.snd = upper.map Prod.fst :=
      List.map_congr_left fun x hx => (htwin x (List.mem_append_right _ hx)).symm
    rw [← hfirst, ← hsecond, hsplit, List.map_append, List.map_append, List.map_cons,
      List.map_cons, hlower, hupper]
    exact .exchanged _ _ hab

end SameButOne

/-! ## §2 Passes that count alike -/

/-- As many pages, bands and controls were counted, and as many controls that are not printed.
Formulas and failures may differ. -/
structure Tally.Alike (t u : Tally) : Prop where
  pages : t.pages = u.pages
  bands : t.bands = u.bands
  objects : t.objects = u.objects
  hidden : t.hidden = u.hidden

theorem Tally.Alike.refl (t : Tally) : t.Alike t := ⟨rfl, rfl, rfl, rfl⟩

theorem Tally.Alike.symm {t u : Tally} (h : t.Alike u) : u.Alike t :=
  ⟨h.pages.symm, h.bands.symm, h.objects.symm, h.hidden.symm⟩

theorem Tally.Alike.trans {t u v : Tally} (h : t.Alike u) (h' : u.Alike v) : t.Alike v :=
  ⟨h.pages.trans h'.pages, h.bands.trans h'.bands, h.objects.trans h'.objects,
    h.hidden.trans h'.hidden⟩

theorem Tally.Alike.add {t u t' u' : Tally} (h : t.Alike u) (h' : t'.Alike u') :
    (t + t').Alike (u + u') :=
  ⟨congrArg₂ (· + ·) h.pages h'.pages, congrArg₂ (· + ·) h.bands h'.bands,
    congrArg₂ (· + ·) h.objects h'.objects, congrArg₂ (· + ·) h.hidden h'.hidden⟩

/-- Two computations come to related values and count alike. -/
structure Counted.Alike {α β : Type} (R : α → β → Prop) (x : Counted α) (y : Counted β) :
    Prop where
  value : R x.value y.value
  tally : x.tally.Alike y.tally

namespace Counted.Alike

variable {α β γ δ : Type} {R : α → β → Prop} {S : γ → δ → Prop}

theorem refl (x : Counted α) : Alike Eq x x := ⟨rfl, .refl _⟩

theorem mono {R' : α → β → Prop} {x : Counted α} {y : Counted β} (h : Alike R x y)
    (hR : ∀ a b, R a b → R' a b) : Alike R' x y := ⟨hR _ _ h.value, h.tally⟩

theorem pure {a : α} {b : β} (h : R a b) :
    Alike R (Pure.pure a : Counted α) (Pure.pure b : Counted β) := ⟨h, .refl _⟩

theorem bind {x : Counted α} {y : Counted β} {f : α → Counted γ} {g : β → Counted δ}
    (hx : Alike R x y) (hf : ∀ a b, R a b → Alike S (f a) (g b)) :
    Alike S (x >>= f) (y >>= g) :=
  have hnext := hf _ _ hx.value
  ⟨hnext.value, hx.tally.add hnext.tally⟩

/-- The same computation, and then computations that are alike. -/
theorem seq (x : Counted α) {f : α → Counted γ} {g : α → Counted δ}
    (hf : ∀ a, Alike S (f a) (g a)) : Alike S (x >>= f) (x >>= g) :=
  (refl x).bind fun a _ h => h ▸ hf a

theorem mapM {f : α → Counted γ} {g : β → Counted δ} {l : List α} {l' : List β}
    (h : List.Forall₂ R l l') (hf : ∀ a b, R a b → Alike S (f a) (g b)) :
    Alike (List.Forall₂ S) (l.mapM f) (l'.mapM g) := by
  induction h with
  | nil => exact .pure .nil
  | cons hab _ ih =>
    rw [List.mapM_cons, List.mapM_cons]
    exact (hf _ _ hab).bind fun _ _ hc => ih.bind fun _ _ hcs => .pure (.cons hc hcs)

/-- Over lists that are the same but for one member, the results are the same but for one. -/
theorem mapM_sameButOne {R : α → α → Prop} {S : γ → γ → Prop} {f : α → Counted γ} {l l' : List α}
    (h : SameButOne R l l') (hf : ∀ a b, R a b → Alike S (f a) (f b)) :
    Alike (SameButOne S) (l.mapM f) (l'.mapM f) := by
  -- The results are mapped, member by member; the counts are summed up, exchanged member or not.
  refine ⟨?_, ?_⟩
  · rw [value_mapM, value_mapM]
    exact h.map fun a b hab => (hf a b hab).value
  · have hcount : ∀ a b, a = b ∨ R a b → Alike (fun _ _ => True) (f a) (f b) := by
      rintro a b (rfl | hab)
      · exact ⟨trivial, .refl _⟩
      · exact ⟨trivial, (hf a b hab).tally⟩
    exact (mapM h.forall₂ hcount).tally

end Counted.Alike

/-! ## §3 Designs that differ in one box -/

variable {κ : Type}

/-- The controls are the same but for what they show: they are boxes of the same frame and border,
at the same place in the stacking order, printed or not. -/
structure Control.SameBox (c c' : Control κ) : Prop where
  id : c.id = c'.id
  zIndex : c.zIndex = c'.zIndex
  printVisible : c.printVisible = c'.printVisible
  body : ∃ frame border content content', c.body = .box frame border content ∧
    c'.body = .box frame border content'

/-- The bands are the same but for one control, in the place of which another stands. -/
structure Band.Exchanges (band : Band κ) (c c' : Control κ) (band' : Band κ) : Prop where
  objects : ∃ before after, band.objects = before ++ c :: after ∧
    band'.objects = before ++ c' :: after
  rest : band' = { band with objects := band'.objects }

/-- The designs are the same but for one control of one band. -/
structure Design.Exchanges (d : Design κ) (c c' : Control κ) (band band' : Band κ)
    (d' : Design κ) : Prop where
  bands : ∃ upper lower, d.bands = upper ++ band :: lower ∧ d'.bands = upper ++ band' :: lower
  band : band.Exchanges c c' band'
  rest : d' = { d with bands := d'.bands }

namespace Band.Exchanges

variable {c c' : Control κ} {band band' : Band κ}

/-- In the order of printing, and after any test that both pass or both fail, the exchanged controls
stand at the same place. -/
theorem filter_printOrder (h : band.Exchanges c c' band') (hz : c.zIndex = c'.zIndex)
    {p : Control κ → Bool} (hp : p c = p c') :
    SameButOne (fun a b => a = c ∧ b = c') (band.printOrder.filter p)
      (band'.printOrder.filter p) := by
  obtain ⟨before, after, hobjects, hobjects'⟩ := h.objects
  -- The controls of the band are the same but for the one.
  have hexchanged : SameButOne (fun a b => a = c ∧ b = c') band.objects band'.objects := by
    rw [hobjects, hobjects']
    exact .exchanged before after ⟨rfl, rfl⟩
  -- Both have the same place in the order of painting, so sorting keeps them in one place.
  have hsorted : SameButOne (fun a b => a = c ∧ b = c') band.printOrder band'.printOrder := by
    refine hexchanged.mergeSort ?_
    rintro _ _ ⟨rfl, rfl⟩
    exact hz
  refine hsorted.filter ?_
  rintro _ _ ⟨rfl, rfl⟩
  exact hp

end Band.Exchanges

theorem Design.Exchanges.bandsOfKind {c c' : Control κ} {band band' : Band κ} {d d' : Design κ}
    (h : d.Exchanges c c' band band' d') (kind : BandKind) :
    SameButOne (fun x y => x = band ∧ y = band') (d.bandsOfKind kind) (d'.bandsOfKind kind) := by
  obtain ⟨upper, lower, hbands, hbands'⟩ := h.bands
  have hexchanged : SameButOne (fun x y => x = band ∧ y = band') d.bands d'.bands := by
    rw [hbands, hbands']
    exact .exchanged upper lower ⟨rfl, rfl⟩
  refine hexchanged.filter ?_
  rintro _ _ ⟨rfl, rfl⟩
  rw [h.band.rest]

/-! ## §4 Reports that differ in one box -/

variable [Coordinate κ]

/-- What a box shows does not change its outer edges. -/
theorem Control.SameBox.displayBox_eq {c c' : Control κ} (h : c.SameBox c') :
    c.displayBox = c'.displayBox := by
  obtain ⟨frame, border, content, content', hbody, hbody'⟩ := h.body
  simp only [displayBox, chromeSize, hbody, hbody']

namespace Printer

/-- The printed controls are a control of a band and a control of another band, each as it is
printed in the context. They have the same identifier and lie at the same place. -/
structure PrintsControls (p : Printer κ) (ctx : Context) (c c' : Control κ) (band band' : Band κ)
    (a b : PrintedObject κ) : Prop where
  first : a = (p.printObject band ctx c : Counted (PrintedObject κ)).value
  second : b = (p.printObject band' ctx c' : Counted (PrintedObject κ)).value
  id : a.id = b.id
  zIndex : a.zIndex = b.zIndex
  bounds : a.bounds = b.bounds

/-- The printed bands are a band and a band with another control in the place of one, printed in
the same context. They are the same but for the instance of this control, if it is printed. -/
structure PrintsBands (p : Printer κ) (c c' : Control κ) (band band' : Band κ)
    (x y : PrintedBand κ) : Prop where
  instances : ∃ ctx, p.IsInstance ctx band x ∧ p.IsInstance ctx band' y ∧
    SameButOne (p.PrintsControls ctx c c' band band') x.objects y.objects
  rest : y = { x with objects := y.objects }

end Printer

/-- The pages have the same number and the same rows, and their bands are the same one by one, but
for those that are instances of the band with the exchanged control. -/
structure PrintedPage.AlikeBut (R : PrintedBand κ → PrintedBand κ → Prop)
    (x y : PrintedPage κ) : Prop where
  number : x.number = y.number
  rows : x.rows = y.rows
  bands : List.Forall₂ (fun b b' => b = b' ∨ R b b') x.bands y.bands

/-- The reports have the same pages but for such bands, and count as many pages, bands and
controls. -/
structure Report.AlikeBut (R : PrintedBand κ → PrintedBand κ → Prop) (x y : Report κ) : Prop where
  pages : List.Forall₂ (PrintedPage.AlikeBut R) x.pages y.pages
  tally : x.tally.Alike y.tally

/-! ## §5 Printing side by side -/

namespace Printer

variable (p : Printer κ) {c c' : Control κ} {band band' : Band κ}

omit [Coordinate κ] in
/-- Whatever a formula is, only its evaluation is counted. -/
theorem tally_evaluate (formula : String) (ctx : Context) :
    (p.evaluate formula ctx : Counted Outcome).tally = { Tally.zero with formulas := 1 } := by
  have hread : (p.evaluate formula ctx : Counted Outcome).tally =
      { Tally.zero with formulas := 1 } + (Tally.zero + Tally.zero) := by
    simp only [evaluate, Counted.tally_bind]
    split <;> rfl
  rw [hread]
  rfl

omit [Coordinate κ] in
/-- The text of a box adds no page, band or control to the tally, whatever the box shows. -/
theorem bodyText_alike (body body' : Body κ) (ctx : Context) :
    Counted.Alike (fun _ _ => True) (p.bodyText body ctx) (p.bodyText body' ctx) := by
  have hzero : ∀ body : Body κ,
      (p.bodyText body ctx : Counted (String × Option Degradation)).tally.Alike .zero := by
    rintro (⟨frame, border, content⟩ | line)
    · cases content with
      | calculated formula format fallback =>
        simp only [bodyText, Counted.tally_bind, tally_evaluate]
        exact ⟨rfl, rfl, rfl, rfl⟩
      | _ => exact .refl _
    · exact .refl _
  exact ⟨trivial, (hzero body).trans (hzero body').symm⟩

/-- A failure counts as no page, band or control. -/
theorem tally_degraded_alike (degraded : Option Degradation) :
    ((degraded.map Degradation.tally).getD .zero).Alike .zero := by
  rcases degraded with _ | _ | _ <;> exact ⟨rfl, rfl, rfl, rfl⟩

/-- Controls that differ in what they show are printed at the same place, and they count alike. -/
theorem printObject_alike (band : Band κ) (ctx : Context) {c c' : Control κ}
    (hbox : c.SameBox c') :
    Counted.Alike (p.PrintsControls ctx c c' band band) (p.printObject band ctx c)
      (p.printObject band ctx c') := by
  have hcount : Counted.Alike (fun _ _ => True) (p.printObject band ctx c : Counted _)
      (p.printObject band ctx c') := by
    -- The texts need not be related; what is counted after them is, failure or not.
    refine (p.bodyText_alike c.body c'.body ctx).bind fun shown shown' _ => ?_
    refine .seq _ fun _ => .bind (R := fun _ _ => True) ⟨trivial, ?_⟩ fun _ _ _ => .pure trivial
    exact (tally_degraded_alike shown.2).trans (tally_degraded_alike shown'.2).symm
  -- The box is the same, since only the payload is another one.
  have hbounds : ({ c.displayBox with y := c.displayBox.y - band.top } : Rect κ) =
      { c'.displayBox with y := c'.displayBox.y - band.top } := by
    rw [hbox.displayBox_eq]
  exact ⟨⟨rfl, rfl, hbox.id, hbox.zIndex, hbounds⟩, hcount.tally⟩

/-! ### Bands -/

variable {p} (h : band.Exchanges c c' band')

include h

omit [Coordinate κ] in
/-- What a formula gives to a band does not depend on its controls. -/
theorem background_exchanged (ctx : Context) :
    (p.background band' ctx : Counted (Option Color)) = p.background band ctx := by
  rw [h.rest]
  rfl

theorem bandHeight_exchanged (ctx : Context) :
    (p.bandHeight band' ctx : Counted κ) = p.bandHeight band ctx := by
  rw [h.rest]
  rfl

/-- Nor does the print of a control depend on the others. -/
theorem printObject_exchanged (ctx : Context) :
    (p.printObject band' ctx : Control κ → Counted (PrintedObject κ)) =
      p.printObject band ctx := by
  rw [h.rest]
  rfl

variable (hbox : c.SameBox c')

include hbox

theorem mapM_printObject_alike (ctx : Context) :
    Counted.Alike (SameButOne (p.PrintsControls ctx c c' band band'))
      ((band.printOrder.filter (·.printVisible)).mapM (p.printObject band ctx))
      ((band'.printOrder.filter (·.printVisible)).mapM (p.printObject band' ctx)) := by
  have hshown := h.filter_printOrder hbox.zIndex (p := (·.printVisible)) hbox.printVisible
  have hprint : ∀ a b, a = c ∧ b = c' → Counted.Alike (p.PrintsControls ctx c c' band band')
      (p.printObject band ctx a) (p.printObject band ctx b) := by
    rintro a b ⟨rfl, rfl⟩
    refine (p.printObject_alike band ctx hbox).mono fun x y hxy => { hxy with second := ?_ }
    rw [printObject_exchanged h]
    exact hxy.second
  rw [printObject_exchanged h]
  exact .mapM_sameButOne hshown hprint

theorem printBandOfHeight_alike (ctx : Context) (rowIndex : Option Nat) (height : κ) :
    Counted.Alike (p.PrintsBands c c' band band') (p.printBandOfHeight ctx rowIndex height band)
      (p.printBandOfHeight ctx rowIndex height band') := by
  -- Being hidden is a matter of the control, not of its payload.
  have hhidden := h.filter_printOrder hbox.zIndex (p := not ∘ (·.printVisible))
    (congrArg not hbox.printVisible)
  have hcount : Counted.Alike
      (fun x y => SameButOne (p.PrintsControls ctx c c' band band') x.objects y.objects ∧
        y = { x with objects := y.objects })
      (p.printBandOfHeight ctx rowIndex height band : Counted (PrintedBand κ))
      (p.printBandOfHeight ctx rowIndex height band') := by
    -- The hidden controls are counted only, so that it is enough that there are as many.
    unfold printBandOfHeight
    rw [List.partition_eq_filter_filter, List.partition_eq_filter_filter,
      background_exchanged h ctx]
    refine .seq _ fun background => .bind (R := fun _ _ => True) ⟨trivial, ?_⟩ fun _ _ _ =>
      (mapM_printObject_alike h hbox ctx).bind fun xs ys hsame => .pure ⟨hsame, ?_⟩
    · exact ⟨rfl, rfl, rfl, hhidden.forall₂.length_eq⟩
    · rw [h.rest]
  -- The objects are alike, and everything else is the same.
  obtain ⟨hobjects, hrest⟩ := hcount.value
  exact ⟨⟨⟨ctx, p.isInstance_printBandOfHeight _ _ _ _, p.isInstance_printBandOfHeight _ _ _ _,
    hobjects⟩, hrest⟩, hcount.tally⟩

/-- The same band, or the exchanged ones, in the same context at the same height. -/
theorem printBandOfHeight_alike_of_mem {x y : Band κ} (hxy : x = y ∨ x = band ∧ y = band')
    (ctx : Context) (rowIndex : Option Nat) (height : κ) :
    Counted.Alike (fun a b => a = b ∨ p.PrintsBands c c' band band' a b)
      (p.printBandOfHeight ctx rowIndex height x) (p.printBandOfHeight ctx rowIndex height y) := by
  rcases hxy with rfl | ⟨rfl, rfl⟩
  · exact (Counted.Alike.refl _).mono fun _ _ => .inl
  · exact (printBandOfHeight_alike h hbox ctx rowIndex height).mono fun _ _ => .inr

theorem printBand_alike {x y : Band κ} (hxy : x = y ∨ x = band ∧ y = band') (ctx : Context) :
    Counted.Alike (fun a b => a = b ∨ p.PrintsBands c c' band band' a b)
      (p.printBand ctx x) (p.printBand ctx y) := by
  have hheight : (p.bandHeight y ctx : Counted κ) = p.bandHeight x ctx := by
    rcases hxy with rfl | ⟨rfl, rfl⟩
    · rfl
    · exact bandHeight_exchanged h ctx
  unfold printBand
  rw [hheight]
  exact .seq _ fun height => printBandOfHeight_alike_of_mem h hbox hxy ctx none height

omit h

/-! ### Pages -/

variable {d d' : Design κ} (hd : d.Exchanges c c' band band' d')

include hd

theorem printBands_alike {bands bands' : List (Band κ)}
    (hbands : SameButOne (fun x y => x = band ∧ y = band') bands bands') (ctx : Context) :
    Counted.Alike (List.Forall₂ fun a b => a = b ∨ p.PrintsBands c c' band band' a b)
      (bands.mapM (p.printBand ctx)) (bands'.mapM (p.printBand ctx)) :=
  .mapM hbands.forall₂ fun _ _ hxy => printBand_alike hd.band hbox hxy ctx

/-- The heights of the bands of a row were computed before, and are the same for both designs. -/
theorem printRow_alike (pageCtx : Context) (index : Nat) (row : Record) (heights : List κ) :
    Counted.Alike (List.Forall₂ fun a b => a = b ∨ p.PrintsBands c c' band band' a b)
      (p.printRow d pageCtx index row heights) (p.printRow d' pageCtx index row heights) := by
  refine .mapM (forall₂_zip_same heights (hd.bandsOfKind .detail).forall₂) ?_
  rintro ⟨x, height⟩ ⟨y, _⟩ ⟨hxy, rfl⟩
  exact printBandOfHeight_alike_of_mem hd.band hbox hxy _ _ height

theorem printRows_alike (pageCtx : Context) (onPage : List ((Record × List κ) × Nat)) :
    Counted.Alike
      (List.Forall₂ (List.Forall₂ fun a b => a = b ∨ p.PrintsBands c c' band band' a b))
      (onPage.mapM fun ((row, heights), index) => p.printRow d pageCtx index row heights)
      (onPage.mapM fun ((row, heights), index) => p.printRow d' pageCtx index row heights) := by
  refine .mapM (List.forall₂_same.mpr fun _ _ => Eq.refl _) ?_
  rintro ⟨⟨row, heights⟩, index⟩ _ rfl
  exact printRow_alike hbox hd pageCtx index row heights

omit hbox in
theorem rowHeights_exchanged (master : Record) (rows : List Record) :
    (p.rowHeights d' master rows : Counted (List (List κ))) = p.rowHeights d master rows := by
  unfold rowHeights
  congr 1
  funext ⟨row, index⟩
  refine ((hd.bandsOfKind .detail).mapM_eq ?_).symm
  rintro _ _ ⟨rfl, rfl⟩
  exact (bandHeight_exchanged hd.band _).symm

theorem printPage_alike (master : Record) (rows : List Record) (heights : List (List κ))
    (totalPages : Nat) (range : RowRange) (pageNumber : Nat) :
    Counted.Alike (PrintedPage.AlikeBut (p.PrintsBands c c' band band'))
      (p.printPage d master rows heights totalPages range pageNumber)
      (p.printPage d' master rows heights totalPages range pageNumber) := by
  -- Whether a summary is printed is a matter of its own settings.
  have hsummaries := (hd.bandsOfKind .summary).filter (p := (·.isPrintedOn pageNumber totalPages))
    (by rintro _ _ ⟨rfl, rfl⟩; rw [hd.band.rest]; rfl)
  -- Side by side: headers, the rows of the page, summaries, footers.
  refine .seq _ fun _ =>
    (printBands_alike hbox hd (hd.bandsOfKind .header) _).bind fun _ _ hheader =>
    (printRows_alike hbox hd _ _).bind fun _ _ hdetail =>
    (printBands_alike hbox hd hsummaries _).bind fun _ _ hsummary =>
    (printBands_alike hbox hd (hd.bandsOfKind .footer) _).bind fun _ _ hfooter =>
    .pure ⟨rfl, rfl, ?_⟩
  exact List.rel_append (List.rel_append (List.rel_append hheader (List.rel_flatten hdetail))
    hsummary) hfooter

theorem printPages_alike (master : Record) (rows : List Record) :
    Counted.Alike (List.Forall₂ (PrintedPage.AlikeBut (p.PrintsBands c c' band band')))
      (p.printPages d master rows) (p.printPages d' master rows) := by
  unfold printPages
  -- The heights of the rows are measured without looking at any control.
  rw [rowHeights_exchanged hd]
  refine .seq _ fun heights => ?_
  -- The split into pages looks at the settings and the heights alone.
  have hranges : p.pagesFor d' heights = p.pagesFor d heights := by
    rw [hd.rest]
    rfl
  rw [hranges]
  refine .mapM (List.forall₂_same.mpr fun _ _ => Eq.refl _) ?_
  rintro ⟨range, i⟩ _ rfl
  exact printPage_alike hbox hd master rows heights _ range (i + 1)

end Printer

/-- **Controls are isolated.** Of two designs that are the same but for what one box shows, the
reports have the same pages of the same rows, with the same bands at the same heights and with the
same backgrounds. All bands are the same but those that print the band of the box, and these are the
same but for the instance of the box itself. As many pages, bands and controls are printed, and as
many controls are hidden; whatever becomes of a formula of the box, only the numbers of evaluated
formulas, missing fields and errors may differ. -/
theorem print_isolated (s : PrintSession κ) (master : Record) (rows : List Record)
    {c c' : Control κ} {band band' : Band κ} {d d' : Design κ} (hbox : c.SameBox c')
    (hd : d.Exchanges c c' band band' d') :
    Report.AlikeBut (s.printer.PrintsBands c c' band band') (s.print d master rows).1
      (s.print d' master rows).1 := by
  rw [s.print_eq, s.print_eq]
  have halike := Printer.printPages_alike (p := s.printer) hbox hd master rows
  exact ⟨halike.value, halike.tally⟩

/-! ## §6 A formula that is no formula -/

private def noon : DateTime := ⟨⟨2021, 6, 15, by decide, by decide⟩, .midnight⟩

/-- A box for a formula, below a box for a field. -/
private def formulaBox (formula : String) : Control Float :=
  .ofContent "object_002" ⟨0, 0, 80, 20⟩ (.calculated formula .general "?")

private def detailBand (formula : String) : Band Float :=
  { Band.ofHeight "detail" "Detail" .detail 0 40 with
    objects := [.ofContent "object_001" ⟨0, 20, 80, 20⟩ (.field "price" .general ""),
      formulaBox formula] }

private def sheet (formula : String) : Design Float := .ofBands [detailBand formula] ⟨noon⟩

private theorem sameBox_formulaBox (f g : String) : (formulaBox f).SameBox (formulaBox g) :=
  ⟨rfl, rfl, rfl, _, _, _, _, rfl, rfl⟩

private theorem exchanges_sheet (f g : String) :
    (sheet f).Exchanges (formulaBox f) (formulaBox g) (detailBand f) (detailBand g) (sheet g) :=
  ⟨⟨[], [], rfl, rfl⟩, ⟨⟨[_], [], rfl, rfl⟩, rfl⟩, rfl⟩

/-- A formula that cannot be read leaves the report as it is with one that can. -/
theorem print_isolated_unreadable :
    let session : PrintSession Float := .start ⟨.builtin, .empty, noon⟩
    let rows : List Record := [.ofList [("price", .number 2.0)], .empty]
    (formulaBox "\x7bprice\x7d * 2").SameBox (formulaBox "\x7bprice\x7d *") ∧
    (sheet "\x7bprice\x7d * 2").Exchanges (formulaBox "\x7bprice\x7d * 2")
      (formulaBox "\x7bprice\x7d *") (detailBand "\x7bprice\x7d * 2")
      (detailBand "\x7bprice\x7d *") (sheet "\x7bprice\x7d *") ∧
    Report.AlikeBut
      (session.printer.PrintsBands (formulaBox "\x7bprice\x7d * 2") (formulaBox "\x7bprice\x7d *")
        (detailBand "\x7bprice\x7d * 2") (detailBand "\x7bprice\x7d *"))
      (session.print (sheet "\x7bprice\x7d * 2") .empty rows).1
      (session.print (sheet "\x7bprice\x7d *") .empty rows).1 :=
  ⟨sameBox_formulaBox _ _, exchanges_sheet _ _,
    print_isolated _ _ _ (sameBox_formulaBox _ _) (exchanges_sheet _ _)⟩

end BandedReport
