import BandedReport.Proofs.Canvas.Relocation
import BandedReport.Proofs.Outcome
import BandedReport.Proofs.Print.Accounting

/-!
# Printing bands elsewhere on the surface

Where the bands of a design lie on the surface does not show in a report: controls are printed by
their place in the band, and a band that is moved takes them along. So laying bands out changes no
report, and moving a boundary shows in nothing but the height of the band of the boundary, as long
as this height has no say in the split into pages.

* `Band.IsMoved.printBandOfHeight_eq` says that a band is printed elsewhere as it was here;
* `Design.placesOn` lists the bands on a page with their indices in the design;
* `SameButHeights` compares what is printed of them, but for the heights of some;
* `print_relocated` is the comparison of whole reports.
-/

namespace BandedReport

open Formula (Context)

/-! ## §1 Bands elsewhere -/

namespace Control

theorem displayBox_lower (c : Control ℚ) (dy : ℚ) :
    (c.lower dy).displayBox = { c.displayBox with y := c.displayBox.y + dy } := by
  rw [lower_eq_slid, displayBox_slid, add_zero]

theorem typeName_lower (c : Control ℚ) (dy : ℚ) : (c.lower dy).typeName = c.typeName := by
  obtain ⟨id, zIndex, printVisible, body⟩ := c
  cases body <;> rfl

theorem isCalculated_lower (c : Control ℚ) (dy : ℚ) :
    (c.lower dy).isCalculated = c.isCalculated := by
  obtain ⟨id, zIndex, printVisible, body⟩ := c
  cases body with
  | box f border content => cases content <;> rfl
  | line l => rfl

end Control

/-- The text of a box or a line does not depend on where it is. -/
theorem Printer.bodyText_shift (p : Printer ℚ) (body : Body ℚ) (dx dy : ℚ) (ctx : Context) :
    (p.bodyText (body.shift dx dy) ctx : Counted (String × Option Degradation)) =
      p.bodyText body ctx := by
  cases body with
  | box f border content => cases content <;> rfl
  | line l => rfl

namespace Band.IsMoved

variable {dy : ℚ} {b b' : Band ℚ} (h : b.IsMoved dy b')

include h

theorem id_eq : b'.id = b.id := by rw [h.rest]

theorem name_eq : b'.name = b.name := by rw [h.rest]

theorem kind_eq : b'.kind = b.kind := by rw [h.rest]

theorem isKind_eq (kind : BandKind) : (b'.kind == kind) = (b.kind == kind) := by rw [h.kind_eq]

theorem isSummaryOn_eq (pageNumber totalPages : Nat) :
    (b'.isPrintedOn pageNumber totalPages && b'.kind == .summary) =
      (b.isPrintedOn pageNumber totalPages && b.kind == .summary) := by
  rw [h.rest]
  rfl

theorem formulaCount_eq : b'.formulaCount = b.formulaCount := by
  have hcalculated : b'.objects.countP (fun c => c.printVisible && c.isCalculated) =
      b.objects.countP fun c => c.printVisible && c.isCalculated := by
    rw [h.objects, List.countP_map]
    refine List.countP_congr fun c _ => ?_
    show (c.printVisible && (c.lower dy).isCalculated) = true ↔ _
    rw [Control.isCalculated_lower]
  rw [formulaCount, hcalculated, h.rest]
  rfl

theorem hiddenCount_eq : b'.hiddenCount = b.hiddenCount := by
  rw [hiddenCount, h.objects, List.countP_map]
  rfl

theorem printOrder_eq : b'.printOrder = b.printOrder.map (Control.lower dy) := by
  rw [printOrder, printOrder, h.objects]
  exact (List.map_mergeSort (f := Control.lower dy) fun _ _ _ _ => rfl).symm

variable (p : Printer ℚ) (ctx : Context)

theorem background_eq :
    (p.background b' ctx : Counted (Option Color)) = p.background b ctx := by
  rw [h.rest]
  rfl

/-- The height of a band is what it was if its designed height is. -/
theorem bandHeight_eq (hheight : b'.height = b.height) :
    (p.bandHeight b' ctx : Counted ℚ) = p.bandHeight b ctx := by
  have hformula : b'.rowHeightFormula = b.rowHeightFormula := by rw [h.rest]
  have hfrom : b'.heightFrom = b.heightFrom := by
    funext outcome
    unfold heightFrom
    rw [hheight]
  simp only [Printer.bandHeight, hformula, hheight, hfrom]

/-- A control that went down with its band is at the same place in it. -/
theorem printObject_eq (c : Control ℚ) :
    (p.printObject b' ctx (c.lower dy) : Counted (PrintedObject ℚ)) = p.printObject b ctx c := by
  -- The control and the top of its band went down together.
  have hbounds : ({ (c.lower dy).displayBox with
      y := (c.lower dy).displayBox.y - b'.top } : Rect ℚ) =
        { c.displayBox with y := c.displayBox.y - b.top } := by
    rw [Control.displayBox_lower, h.top]
    simp only [add_sub_add_right_eq_sub]
  have htext : (p.bodyText (c.lower dy).body ctx : Counted (String × Option Degradation)) =
      p.bodyText c.body ctx := p.bodyText_shift _ _ _ _
  unfold Printer.printObject
  rw [htext]
  dsimp only
  rw [hbounds, Control.typeName_lower]
  rfl

/-- At a height, a band is printed elsewhere as it was here. -/
theorem printBandOfHeight_eq (rowIndex : Option Nat) (height : ℚ) :
    (p.printBandOfHeight ctx rowIndex height b' : Counted (PrintedBand ℚ)) =
      p.printBandOfHeight ctx rowIndex height b := by
  -- The controls are printed one by one, in the order they had.
  have hshown : (b'.printOrder.filter (·.printVisible)).mapM (p.printObject b' ctx) =
      ((b.printOrder.filter (·.printVisible)).mapM (p.printObject b ctx) :
        Counted (List (PrintedObject ℚ))) := by
    rw [h.printOrder_eq, List.filter_map, List.mapM_map]
    exact mapM_congr fun c _ => h.printObject_eq p ctx c
  -- The hidden ones are counted, and there are as many.
  have hhidden : (b'.printOrder.filter (not ∘ (·.printVisible))).length =
      (b.printOrder.filter (not ∘ (·.printVisible))).length := by
    rw [h.printOrder_eq, List.filter_map, List.length_map]
    rfl
  unfold Printer.printBandOfHeight
  simp only [List.partition_eq_filter_filter, hshown, hhidden, h.background_eq, h.id_eq,
    h.name_eq, h.kind_eq]

end Band.IsMoved

/-! ## §2 The bands on a page -/

section Places

variable {κ : Type} (d : Design κ)

/-- The bands of a design that pass a test, from top to bottom, each with its index. -/
def Design.placesWhere (keep : Band κ → Bool) : List (Band κ × Nat) :=
  d.bands.zipIdx.filter fun place => keep place.1

theorem Design.map_fst_placesWhere (keep : Band κ → Bool) :
    (d.placesWhere keep).map (·.1) = d.bands.filter keep := by
  conv_rhs => rw [← List.zipIdx_map_fst 0 d.bands, List.filter_map]
  rfl

/-- The bands of a design that are printed on a page, one by one, each with its index. -/
def Design.placesOn (totalPages : Nat) (page : PrintedPage κ) : List (Band κ × Nat) :=
  d.placesWhere (·.kind == .header) ++
    (page.rows.indices.flatMap fun _ => d.placesWhere (·.kind == .detail)) ++
    d.placesWhere (fun b => b.isPrintedOn page.number totalPages && b.kind == .summary) ++
    d.placesWhere (·.kind == .footer)

theorem Design.map_fst_placesOn (totalPages : Nat) (page : PrintedPage κ) :
    (d.placesOn totalPages page).map (·.1) = d.bandsOn totalPages page := by
  rw [bandsOn, ← Printer.filter_isPrintedOn]
  simp only [placesOn, List.map_append, List.map_flatMap, map_fst_placesWhere, bandsOfKind,
    List.filter_filter]

variable [Coordinate κ] (p : Printer κ)

/-- A band as it is printed in a context, with the height that it has in another. -/
def Printer.bandIn (layout ctx : Context) (rowIndex : Option Nat) (band : Band κ) :
    PrintedBand κ :=
  (p.printBandOfHeight ctx rowIndex (p.bandHeight band layout : Counted κ).value band :
    Counted (PrintedBand κ)).value

variable (master : Record) (rows : List Record)

theorem Printer.value_printRow (pageCtx : Context) (place : Record × Nat) :
    (p.printRow d pageCtx place.2 place.1 (p.heightsOfRow d master rows place) :
      Counted (List (PrintedBand κ))).value =
      (d.bandsOfKind .detail).map (p.bandIn (p.layoutContext master rows place.2 place.1)
        { pageCtx.forRow place.1 with rowIndex := place.2 } (some place.2)) := by
  rw [printRow, heightsOfRow, ← List.map_prod_left_eq_zip, Counted.value_mapM, List.map_map]
  rfl

/-- The bands of a page, printed from those of the design that pass a test for it. -/
theorem Printer.bands_pageOf_eq (totalPages : Nat) (range : RowRange) (pageNumber : Nat) :
    let ctx := p.pageContext master rows range pageNumber totalPages
    let print (keep : Band κ → Bool) := (d.bands.filter keep).map (p.bandIn ctx ctx none)
    (p.pageOf d master rows totalPages range pageNumber).bands =
      print (·.kind == .header) ++
        ((range.places rows).flatMap fun place =>
          (d.bands.filter (·.kind == .detail)).map
            (p.bandIn (p.layoutContext master rows place.2 place.1)
              { ctx.forRow place.1 with rowIndex := place.2 } (some place.2))) ++
        print (fun b => b.isPrintedOn pageNumber totalPages && b.kind == .summary) ++
        print (·.kind == .footer) := by
  -- A band on a page is printed in the context of the page, and a detail band in that of its row.
  intro ctx print
  rw [bands_pageOf, detailsOf_eq_flatMap]
  simp only [value_printRow, Design.bandsOfKind, List.filter_filter]
  rfl

end Places

/-- A split that does not look at the heights looks at their number. -/
theorem Paging.split_eq_of_length {κ : Type} [Coordinate κ] {paging : Paging κ}
    (hpaging : ∀ limit, paging ≠ .byHeight limit) {heights heights' : List κ}
    (hlength : heights.length = heights'.length) :
    paging.split heights = paging.split heights' := by
  have hempty : heights.isEmpty = heights'.isEmpty := by
    rw [Bool.eq_iff_iff, List.isEmpty_iff_length_eq_zero, List.isEmpty_iff_length_eq_zero, hlength]
  unfold split
  rw [hempty, hlength]
  cases paging with
  | onePage | byRows => rfl
  | byHeight limit => exact absurd rfl (hpaging limit)

/-! ## §3 Pages side by side -/

section SideBySide

variable {κ : Type} [Coordinate κ]

/-- Printed bands side by side, with the bands of the design that they are instances of: they are
the same one by one, but for the heights of the instances of bands with excepted indices. -/
inductive SameButHeights (p : Printer κ) (excepted : Nat → Prop) :
    List (Band κ × Nat) → List (PrintedBand κ) → List (PrintedBand κ) → Prop
  | nil : SameButHeights p excepted [] [] []
  | same {place : Band κ × Nat} {ctx : Context} {printed : PrintedBand κ}
      {places : List (Band κ × Nat)} {x y : List (PrintedBand κ)}
      (h : p.IsInstance ctx place.1 printed) (rest : SameButHeights p excepted places x y) :
    SameButHeights p excepted (place :: places) (printed :: x) (printed :: y)
  | resized {place : Band κ × Nat} {ctx : Context} {printed : PrintedBand κ}
      {places : List (Band κ × Nat)} {x y : List (PrintedBand κ)}
      (h : p.IsInstance ctx place.1 printed) (hindex : excepted place.2) (height : κ)
      (rest : SameButHeights p excepted places x y) :
    SameButHeights p excepted (place :: places) (printed :: x) ({ printed with height } :: y)

namespace SameButHeights

variable {p : Printer κ} {excepted : Nat → Prop} {places places' : List (Band κ × Nat)}
  {x y x' y' : List (PrintedBand κ)}

theorem append (h : SameButHeights p excepted places x y)
    (h' : SameButHeights p excepted places' x' y') :
    SameButHeights p excepted (places ++ places') (x ++ x') (y ++ y') := by
  induction h with
  | nil => exact h'
  | same h _ ih => exact .same h ih
  | resized h hindex height _ ih => exact .resized h hindex height ih

theorem flatMap {α : Type} {places : α → List (Band κ × Nat)} {x y : α → List (PrintedBand κ)}
    (h : ∀ a, SameButHeights p excepted (places a) (x a) (y a)) (l : List α) :
    SameButHeights p excepted (l.flatMap places) (l.flatMap x) (l.flatMap y) := by
  induction l with
  | nil => exact .nil
  | cons a as ih =>
    rw [List.flatMap_cons, List.flatMap_cons, List.flatMap_cons]
    exact (h a).append ih

/-- The controls are the same. -/
theorem map_objects (h : SameButHeights p excepted places x y) :
    y.map (·.objects) = x.map (·.objects) := by
  induction h with
  | nil => rfl
  | same _ _ ih => rw [List.map_cons, List.map_cons, ih]
  | resized _ _ _ _ ih => rw [List.map_cons, List.map_cons, ih]

/-- Without exceptions the bands are the same. -/
theorem eq_of_forall_not (hnone : ∀ index, ¬ excepted index)
    (h : SameButHeights p excepted places x y) : y = x := by
  induction h with
  | nil => rfl
  | same _ _ ih => rw [ih]
  | resized _ hindex _ _ _ => exact absurd hindex (hnone _)

end SameButHeights

/-- Two pages of the same number and rows whose bands are the same, but for the heights of some. -/
structure SamePageButHeights (p : Printer κ) (d : Design κ) (excepted : Nat → Prop)
    (totalPages : Nat) (page page' : PrintedPage κ) : Prop where
  number : page'.number = page.number
  rows : page'.rows = page.rows
  bands : SameButHeights p excepted (d.placesOn totalPages page) page.bands page'.bands

/-- Two reports whose pages are the same, but for the heights of the instances of bands with
excepted indices. -/
structure SameReportButHeights (p : Printer κ) (d : Design κ) (excepted : Nat → Prop)
    (report report' : Report κ) : Prop where
  pages : List.Forall₂ (SamePageButHeights p d excepted report.pages.length)
    report.pages report'.pages
  tally : report'.tally = report.tally

/-- Without exceptions the reports are the same. -/
theorem SameReportButHeights.eq_of_forall_not {p : Printer κ} {d : Design κ}
    {excepted : Nat → Prop} {report report' : Report κ} (hnone : ∀ index, ¬ excepted index)
    (h : SameReportButHeights p d excepted report report') : report' = report := by
  have hpage : ∀ page page', SamePageButHeights p d excepted report.pages.length page page' →
      page = page' := by
    -- Nothing is excepted, so pages are the same number by number.
    rintro ⟨number, rows, bands⟩ ⟨number', rows', bands'⟩ ⟨hnumber, hrows, hbands⟩
    cases hnumber
    cases hrows
    cases hbands.eq_of_forall_not hnone
    rfl
  have hpages : report.pages = report'.pages := by
    rw [← List.forall₂_eq_eq_eq]
    exact h.pages.imp hpage
  cases report
  cases report'
  cases hpages
  cases h.tally
  rfl

end SideBySide

section Moved

variable {p : Printer ℚ} {excepted : Nat → Prop}

/-- A band that is carried is printed as it was, but perhaps for its height. -/
theorem sameButHeights_bandIn {places : List (Band ℚ × Nat)} {bands' : List (Band ℚ)}
    (h : List.Forall₂ (CarriedBut excepted) places bands') (layout ctx : Context)
    (rowIndex : Option Nat) :
    SameButHeights p excepted places
      (places.map fun place => p.bandIn layout ctx rowIndex place.1)
      (bands'.map (p.bandIn layout ctx rowIndex)) := by
  induction h with
  | nil => exact .nil
  | @cons place b' places bands' hband _ ih =>
    -- Each band is carried, with its height unless it is excepted.
    have hinstance : p.IsInstance ctx place.1 (p.bandIn layout ctx rowIndex place.1) :=
      p.isInstance_printBandOfHeight _ _ _ _
    obtain ⟨dy, hmoved⟩ := hband.isMoved
    -- All but the height is printed as it was, and the height too unless the index is excepted.
    by_cases hindex : excepted place.2
    · have hprinted : p.bandIn layout ctx rowIndex b' =
          { p.bandIn layout ctx rowIndex place.1 with
            height := (p.bandHeight b' layout : Counted ℚ).value } := by
        rw [Printer.bandIn, hmoved.printBandOfHeight_eq]
        rfl
      rw [List.map_cons, List.map_cons, hprinted]
      exact .resized hinstance hindex _ ih
    · have hprinted : p.bandIn layout ctx rowIndex b' = p.bandIn layout ctx rowIndex place.1 := by
        rw [Printer.bandIn, hmoved.printBandOfHeight_eq, hmoved.bandHeight_eq p layout
          (hband.height hindex)]
        rfl
      rw [List.map_cons, List.map_cons, hprinted]
      exact .same hinstance ih

variable {d : Design ℚ} {bands' : List (Band ℚ)} (h : MovedBut excepted d.bands bands')

include h

/-- A test that does not look at the place of a band keeps the same bands. -/
theorem MovedBut.filter {keep : Band ℚ → Bool}
    (hkeep : ∀ {dy b b'}, Band.IsMoved dy b b' → keep b' = keep b) :
    List.Forall₂ (CarriedBut excepted) (d.placesWhere keep) (bands'.filter keep) := by
  refine List.rel_filter ?_ h
  intro place b' hband
  obtain ⟨dy, hmoved⟩ := hband.isMoved
  show keep place.1 = true ↔ keep b' = true
  rw [hkeep hmoved]

theorem MovedBut.sameButHeights {keep : Band ℚ → Bool}
    (hkeep : ∀ {dy b b'}, Band.IsMoved dy b b' → keep b' = keep b) (layout ctx : Context)
    (rowIndex : Option Nat) :
    SameButHeights p excepted (d.placesWhere keep)
      ((d.bands.filter keep).map (p.bandIn layout ctx rowIndex))
      ((bands'.filter keep).map (p.bandIn layout ctx rowIndex)) := by
  rw [← d.map_fst_placesWhere, List.map_map]
  exact sameButHeights_bandIn (h.filter hkeep) layout ctx rowIndex

/-- What belongs on a page is carried. -/
theorem MovedBut.bandsOn (totalPages : Nat) {page page' : PrintedPage ℚ}
    (hnumber : page'.number = page.number) (hrows : page'.rows = page.rows) :
    List.Forall₂ (CarriedBut excepted) (d.placesOn totalPages page)
      (({ d with bands := bands' } : Design ℚ).bandsOn totalPages page') := by
  rw [Design.bandsOn, ← Printer.filter_isPrintedOn, hnumber, hrows]
  simp only [Design.bandsOfKind, List.filter_filter]
  refine List.rel_append (List.rel_append (List.rel_append ?_ ?_) ?_) ?_
  · exact h.filter (·.isKind_eq .header)
  · exact forall₂_flatMap fun _ _ => h.filter (·.isKind_eq .detail)
  · exact h.filter (·.isSummaryOn_eq page.number totalPages)
  · exact h.filter (·.isKind_eq .footer)

/-- What belongs on a page has the same numbers of formulas and of hidden controls. -/
theorem MovedBut.map_bandsOn {count : Band ℚ → Nat}
    (hcount : ∀ {dy b b'}, Band.IsMoved dy b b' → count b' = count b) (totalPages : Nat)
    {page page' : PrintedPage ℚ} (hnumber : page'.number = page.number)
    (hrows : page'.rows = page.rows) :
    (({ d with bands := bands' } : Design ℚ).bandsOn totalPages page').map count =
      (d.bandsOn totalPages page).map count := by
  rw [← d.map_fst_placesOn, List.map_map]
  exact map_eq_of_forall₂ ((h.bandsOn totalPages hnumber hrows).imp fun _ _ hband =>
    hband.isMoved.elim fun _ => hcount)

variable (master : Record) (rows : List Record)

/-- A page of the same rows holds the same bands, but for the excepted heights. -/
theorem MovedBut.sameButHeights_pageOf (totalPages : Nat) {range : RowRange}
    (hrange : range.stop ≤ rows.length) (pageNumber : Nat) :
    let page := p.pageOf d master rows totalPages range pageNumber
    SameButHeights p excepted (d.placesOn totalPages page) page.bands
      (p.pageOf { d with bands := bands' } master rows totalPages range pageNumber).bands := by
  intro page
  -- The places on a page are those of the four kinds of bands.
  have hplaces : d.placesOn totalPages page =
      d.placesWhere (·.kind == .header) ++
        ((range.places rows).flatMap fun _ => d.placesWhere (·.kind == .detail)) ++
        d.placesWhere (fun b => b.isPrintedOn pageNumber totalPages && b.kind == .summary) ++
        d.placesWhere (·.kind == .footer) := by
    show _ ++ (range.indices.flatMap fun _ => _) ++ _ ++ _ = _
    rw [← range.map_places hrange, List.flatMap_map]
    rfl
  rw [hplaces, show page.bands = _ from p.bands_pageOf_eq d master rows totalPages range pageNumber,
    p.bands_pageOf_eq { d with bands := bands' } master rows totalPages range pageNumber]
  -- Headers, the rows of the page, summaries, footers.
  refine SameButHeights.append (.append (.append ?_ ?_) ?_) ?_
  · exact h.sameButHeights (·.isKind_eq _) _ _ _
  · exact .flatMap (fun place => h.sameButHeights (·.isKind_eq _) _ _ _) _
  · exact h.sameButHeights (·.isSummaryOn_eq _ _) _ _ _
  · exact h.sameButHeights (·.isKind_eq _) _ _ _

/-- The rows are split into the same pages if no height counts, or none of a detail band is
excepted. -/
theorem MovedBut.paginate_eq
    (hfixed : (∀ limit, Paging.choose p.options d.settings ≠ .byHeight limit) ∨
      ∀ place ∈ d.placesWhere (·.kind == .detail), ¬ excepted place.2) :
    p.paginate { d with bands := bands' } master rows = p.paginate d master rows := by
  rw [Printer.paginate, Printer.paginate, Printer.value_rowHeights, Printer.value_rowHeights]
  -- Either no height counts, or every row is as high as it was.
  rcases hfixed with hpaging | hdetails
  · exact Paging.split_eq_of_length hpaging (by simp)
  · -- No detail band is excepted, so each has the height it had.
    have hdetail := (List.forall₂_and_left _ _).mpr ⟨hdetails, h.filter (·.isKind_eq .detail)⟩
    have hheights : p.heightsOfRow { d with bands := bands' } master rows =
        p.heightsOfRow d master rows := by
      funext place
      show (bands'.filter _).map _ = (d.bands.filter _).map _
      rw [← d.map_fst_placesWhere, List.map_map]
      refine map_eq_of_forall₂ (hdetail.imp fun _ _ hband => ?_)
      obtain ⟨hindex, ⟨dy, hmoved⟩, hheight⟩ := hband
      rw [hmoved.bandHeight_eq p _ (hheight hindex)]
      rfl
    rw [hheights]
    rfl

/-! ## §4 Reports side by side -/

/-- Bands that are carried print the same report, but for the excepted heights. -/
theorem MovedBut.sameReportButHeights
    (hfixed : (∀ limit, Paging.choose p.options d.settings ≠ .byHeight limit) ∨
      ∀ place ∈ d.placesWhere (·.kind == .detail), ¬ excepted place.2) :
    SameReportButHeights p d excepted (p.print d master rows)
      (p.print { d with bands := bands' } master rows) := by
  -- There are as many pages as ranges of rows.
  have hlength : (p.print d master rows).pages.length = (p.paginate d master rows).length := by
    rw [p.pages_print, List.length_map, List.length_zipIdx]
  have hpages : List.Forall₂ (SamePageButHeights p d excepted (p.print d master rows).pages.length)
      (p.print d master rows).pages (p.print { d with bands := bands' } master rows).pages := by
    -- Both reports have a page for the same ranges.
    rw [hlength, p.pages_print, p.pages_print, h.paginate_eq master rows hfixed,
      List.forall₂_map_left_iff, List.forall₂_map_right_iff, List.forall₂_same]
    intro place hplace
    -- The range is one of rows that there are.
    have hstop : place.1.stop ≤ rows.length :=
      (p.isPaging_paginate d master rows).tiles.stop_le _ (List.fst_mem_of_mem_zipIdx hplace)
    exact ⟨rfl, rfl, h.sameButHeights_pageOf master rows _ hstop _⟩
  have htally := p.tally_print d master rows
  have htally' := p.tally_print { d with bands := bands' } master rows
  dsimp only at htally htally'
  generalize p.print d master rows = report at *
  generalize p.print { d with bands := bands' } master rows = report' at *
  -- The numbers in the tally are those of the controls, and of what belongs on the pages.
  have hobjects : (report'.pages.flatMap (·.bands)).map (·.objects) =
      (report.pages.flatMap (·.bands)).map (·.objects) :=
    map_flatMap_eq_of_forall₂ (hpages.imp fun _ _ hpage => hpage.bands.map_objects)
  have hprinted : (report'.pages.flatMap (·.bands)).length =
      (report.pages.flatMap (·.bands)).length := by
    rw [← List.length_map, hobjects, List.length_map]
  have hcontrols : (report'.pages.flatMap (·.bands)).flatMap (·.objects) =
      (report.pages.flatMap (·.bands)).flatMap (·.objects) := by
    rw [List.flatMap_def, hobjects, ← List.flatMap_def]
  have hdesigned : ∀ {count : Band ℚ → Nat},
      (∀ {dy b b'}, Band.IsMoved dy b b' → count b' = count b) →
      (report'.pages.flatMap
        (({ d with bands := bands' } : Design ℚ).bandsOn report.pages.length)).map count =
      (report.pages.flatMap (d.bandsOn report.pages.length)).map count :=
    fun hcount => map_flatMap_eq_of_forall₂ (hpages.imp fun _ _ hpage =>
      h.map_bandsOn hcount _ hpage.number hpage.rows)
  refine ⟨hpages, ?_⟩
  -- The tallies are numbers of the same pages and controls.
  rw [htally, htally', ← hpages.length_eq, hdesigned (·.formulaCount_eq),
    hdesigned (·.hiddenCount_eq), hprinted, hcontrols]

end Moved

/-- **Where the bands lie does not show in a report.** For a design whose controls are at the floors
of the geometry, laying its bands out, at any spacing, changes no report of it. Moving the lower
boundary of one of its bands anywhere changes at most the heights of the printed instances of this
band, as long as it is no detail band whose height splits the rows into pages. -/
theorem print_relocated (s : PrintSession ℚ) (d : Design ℚ) (master : Record)
    (rows : List Record) (hfloors : ∀ c ∈ allObjects d.bands, c.AboveFloors) :
    (∀ spacing, (s.print { d with bands := restackBands spacing d.bands } master rows).1 =
      (s.print d master rows).1) ∧
    ∀ index newBottom spacing,
      ((∀ limit, Paging.choose s.printer.options d.settings ≠ .byHeight limit) ∨
        ∀ band, d.bands[index]? = some band → band.kind ≠ .detail) →
      SameReportButHeights s.printer d (· = index) (s.print d master rows).1
        (s.print { d with bands := resizeBand d.bands index newBottom spacing } master rows).1 := by
  refine ⟨fun spacing => ?_, fun index newBottom spacing hfixed => ?_⟩
  · -- Laying out excepts no band.
    rw [s.print_eq, s.print_eq]
    exact ((movedBut_restackBands hfloors spacing).sameReportButHeights master rows
      (.inr fun _ _ => not_false)).eq_of_forall_not fun _ => not_false
  · -- The band of the boundary is the exception, and it must not split the rows into pages.
    rw [s.print_eq, s.print_eq]
    refine (movedBut_resizeBand hfloors index newBottom spacing).sameReportButHeights master rows
      (hfixed.imp_right fun hkind => ?_)
    rintro ⟨band, i⟩ hplace rfl
    obtain ⟨hmem, hdetail⟩ := List.mem_filter.mp hplace
    exact hkind band (List.mem_zipIdx_iff_getElem?.mp hmem) (eq_of_beq hdetail)

private def tenth : DateTime := ⟨⟨2016, 10, 10, by decide, by decide⟩, .midnight⟩

/-- A title over a rule, and prices further down. -/
private def priceList : Design ℚ :=
  .ofBands
    [{ Band.ofHeight "h" "Header" .header 0 60 with
        objects := [.ofContent "title" ⟨10, 10, 80, 20⟩ (.text "Prices"),
          .ofLine "rule" (.thin 0 50 100 50)] },
      { Band.ofHeight "d" "Detail" .detail 90 30 with
        objects := [.ofContent "price" ⟨10, 95, 40, 20⟩ (.field "price" .general "?")] }] ⟨tenth⟩

/-- Pages of a limited height. -/
private def lowPages : PrintSession ℚ :=
  .start ⟨.builtin, ⟨none, some 70, none, ""⟩, tenth⟩

private def prices : List Record :=
  [.ofList [("price", .number 3.0)], .empty, .ofList [("price", .number 4.5)]]

/-- Laid out, the bands close up; with the boundary of the header further down, they come apart.
Either way the same is printed, but for the height of the header in the second case. -/
theorem print_relocated_priceList :
    let laidOut := restackBands 4 priceList.bands
    let apart := resizeBand priceList.bands 0 200 4
    let print (bands : List (Band ℚ)) := (lowPages.print { priceList with bands } .empty prices).1
    (∀ c ∈ allObjects priceList.bands, c.AboveFloors) ∧
    (∀ band, priceList.bands[0]? = some band → band.kind ≠ .detail) ∧
    [priceList.bands, laidOut, apart].map (List.map (·.top)) = [[0, 90], [0, 64], [0, 230]] ∧
    print laidOut = print priceList.bands ∧
    SameReportButHeights lowPages.printer priceList (· = 0) (print priceList.bands)
      (print apart) := by
  intro laidOut apart print
  -- Every control of the list has the least size, and the band to be resized is a header.
  have hfloors : ∀ c ∈ allObjects priceList.bands, c.AboveFloors := by decide +kernel
  have hheader : ∀ band, priceList.bands[0]? = some band → band.kind ≠ .detail := by
    rintro _ ⟨⟩
    decide
  obtain ⟨hlaidOut, hapart⟩ := print_relocated lowPages priceList .empty prices hfloors
  exact ⟨hfloors, hheader, by decide +kernel, hlaidOut 4, hapart 0 200 4 (.inr hheader)⟩

end BandedReport
