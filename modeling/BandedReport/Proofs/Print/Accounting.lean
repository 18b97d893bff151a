import Mathlib.Algebra.BigOperators.Group.List.Basic
import Mathlib.Tactic.Abel
import BandedReport.Proofs.Print.Isolation

/-!
# What a report counts

The tally of a print pass accounts for the report exactly. Everything that is counted belongs to one
printed band: what its design asks for (`Band.share`: the formulas and the hidden controls) and what
came of it (`PrintedBand.share`: the band, its controls, and those that show a fallback text). The
heights of detail bands are evaluated before the rows are split into pages, once for every row;
since the pages tile the rows, they can be put to the bands that are printed later.
-/

namespace BandedReport

open Formula (Context Outcome)
open Printing (count)

/-! ## §1 Sums of tallies -/

namespace Tally

theorem add_comm (a b : Tally) : a + b = b + a := by
  change add a b = add b a
  simp [add, Nat.add_comm]

instance : Zero Tally := ⟨zero⟩

instance : AddCommMonoid Tally where
  add_assoc := add_assoc
  zero_add := zero_add
  add_zero := add_zero
  add_comm := add_comm
  nsmul := nsmulRec

theorem mk_add_mk (a b c d e f g a' b' c' d' e' f' g' : Nat) :
    (⟨a, b, c, d, e, f, g⟩ + ⟨a', b', c', d', e', f', g'⟩ : Tally) =
      ⟨a + a', b + b', c + c', d + d', e + e', f + f', g + g'⟩ := rfl

theorem sum_onePage {α : Type} (l : List α) :
    (l.map fun _ => ({ Tally.zero with pages := 1 } : Tally)).sum =
      { Tally.zero with pages := l.length } := by
  induction l with
  | nil => rfl
  | cons a rest ih =>
    rw [List.map_cons, List.sum_cons, ih, mk_add_mk, List.length_cons, Nat.add_comm 1]
    rfl

end Tally

/-- What is summed up over pieces of a list is summed up over the list. -/
theorem sum_map_flatMap {α β M : Type} [AddMonoid M] (f : α → List β) (g : β → M) (l : List α) :
    ((l.flatMap f).map g).sum = (l.map fun a => ((f a).map g).sum).sum := by
  rw [List.map_flatMap, List.flatMap_def, List.sum_flatten, List.map_map]
  rfl

@[simp] theorem Counted.tally_mapM {α β : Type} (f : α → Counted β) (l : List α) :
    (l.mapM f).tally = (l.map fun a => (f a).tally).sum := by
  induction l with
  | nil => rfl
  | cons a as ih =>
    rw [List.mapM_cons, List.map_cons, List.sum_cons, ← ih]
    rfl

/-! ## §2 Shares of a band -/

variable {κ : Type}

/-- Does the control show the value of a formula? -/
def Control.isCalculated (c : Control κ) : Bool :=
  match c.body with
  | .box _ _ (.calculated ..) => true
  | _ => false

/-- Does the control show a fallback text because the data lack a field? -/
def PrintedObject.lacksField (o : PrintedObject κ) : Bool :=
  match o.degraded with
  | some (.missingField _) => true
  | _ => false

/-- Did the formula of the control fail for another reason? -/
def PrintedObject.hasFailed (o : PrintedObject κ) : Bool :=
  match o.degraded with
  | some (.error _) => true
  | _ => false

namespace Band

/-- The formulas of an instance of the band: its own ones, and those of the controls it shows. -/
def formulaCount (band : Band κ) : Nat :=
  (if band.rowHeightFormula.isSome then 1 else 0) +
    (if band.backgroundColorFormula.isSome then 1 else 0) +
    band.objects.countP fun c => c.printVisible && c.isCalculated

/-- The controls that an instance of the band does not show. -/
def hiddenCount (band : Band κ) : Nat := band.objects.countP (!·.printVisible)

/-- What the design of a band adds to the tally for each of its instances. -/
def share (band : Band κ) : Tally :=
  { Tally.zero with formulas := band.formulaCount, hidden := band.hiddenCount }

/-- What the height of a band adds to the tally. -/
def heightShare (band : Band κ) : Tally :=
  { Tally.zero with formulas := if band.rowHeightFormula.isSome then 1 else 0 }

end Band

/-- What an instance of a band adds to the tally, its formulas apart. -/
def PrintedBand.share (printed : PrintedBand κ) : Tally :=
  { Tally.zero with
    bands := 1, objects := printed.objects.length
    missingFields := printed.objects.countP (·.lacksField)
    errors := printed.objects.countP (·.hasFailed) }

namespace Printer

variable (p : Printer κ)

theorem tally_background (band : Band κ) (ctx : Context) :
    (p.background band ctx : Counted (Option Color)).tally =
      { Tally.zero with formulas := if band.backgroundColorFormula.isSome then 1 else 0 } := by
  unfold background
  cases band.backgroundColorFormula with
  | none => rfl
  | some formula =>
    simp only [Counted.tally_bind, tally_evaluate]
    rfl

theorem tally_bodyText (c : Control κ) (ctx : Context) :
    (p.bodyText c.body ctx : Counted (String × Option Degradation)).tally =
      { Tally.zero with formulas := if c.isCalculated then 1 else 0 } := by
  unfold Control.isCalculated
  rcases c.body with ⟨frame, border, content⟩ | line
  · cases content with
    | calculated formula format fallback =>
      simp only [bodyText, Counted.tally_bind, tally_evaluate]
      rfl
    | _ => rfl
  · rfl

variable [Coordinate κ]

theorem tally_bandHeight (band : Band κ) (ctx : Context) :
    (p.bandHeight band ctx : Counted κ).tally = band.heightShare := by
  unfold bandHeight Band.heightShare
  cases band.rowHeightFormula with
  | none => rfl
  | some formula =>
    simp only [Counted.tally_bind, tally_evaluate]
    rfl

/-- A printed control counts once, with its formula, and with its failure. -/
theorem tally_printObject (band : Band κ) (ctx : Context) (c : Control κ) :
    let printed : Counted (PrintedObject κ) := p.printObject band ctx c
    printed.tally =
      { Tally.zero with
        objects := 1, formulas := if c.isCalculated then 1 else 0
        missingFields := if printed.value.lacksField then 1 else 0
        errors := if printed.value.hasFailed then 1 else 0 } := by
  intro printed
  have htext := p.tally_bodyText c ctx
  simp only [printed, printObject, PrintedObject.lacksField, PrintedObject.hasFailed,
    Counted.tally_bind, Counted.value_bind, Counted.value_pure, htext]
  rcases (p.bodyText c.body ctx : Counted (String × Option Degradation)).value with
    ⟨text, _ | _ | _⟩ <;> rfl

/-- The controls of a band as they are printed in a context. -/
def printedObjects (band : Band κ) (ctx : Context) (controls : List (Control κ)) :
    List (PrintedObject κ) :=
  controls.map fun c => (p.printObject band ctx c : Counted (PrintedObject κ)).value

theorem tally_printObjects (band : Band κ) (ctx : Context) (controls : List (Control κ)) :
    (controls.mapM (p.printObject band ctx) : Counted (List (PrintedObject κ))).tally =
      { Tally.zero with
        objects := (p.printedObjects band ctx controls).length
        formulas := controls.countP (·.isCalculated)
        missingFields := (p.printedObjects band ctx controls).countP (·.lacksField)
        errors := (p.printedObjects band ctx controls).countP (·.hasFailed) } := by
  rw [Counted.tally_mapM]
  -- Each control counts for itself.
  induction controls with
  | nil => rfl
  | cons c rest ih =>
    rw [List.map_cons, List.sum_cons, ih, tally_printObject]
    simp only [printedObjects, Tally.zero, Tally.mk_add_mk, List.map_cons, List.length_cons,
      List.countP_cons, Nat.add_comm]

/-- What is counted for a band, its height included, is its share and that of its design. -/
theorem tally_printBandOfHeight (ctx : Context) (rowIndex : Option Nat) (height : κ)
    (band : Band κ) :
    let printed : Counted (PrintedBand κ) := p.printBandOfHeight ctx rowIndex height band
    band.heightShare + printed.tally = band.share + printed.value.share := by
  intro printed
  -- Sorting the controls changes no number of them.
  have hperm : band.printOrder.Perm band.objects := List.mergeSort_perm _ _
  have hcalculated : (band.printOrder.filter (·.printVisible)).countP (·.isCalculated) =
      band.objects.countP fun c => c.printVisible && c.isCalculated := by
    rw [List.countP_filter, hperm.countP_eq]
    simp only [Bool.and_comm]
  have hhidden : (band.printOrder.filter (not ∘ (·.printVisible))).length = band.hiddenCount := by
    rw [← List.countP_eq_length_filter, hperm.countP_eq]
    rfl
  have hobjects : printed.value.objects =
      p.printedObjects band ctx (band.printOrder.filter (·.printVisible)) :=
    (p.isInstance_printBandOfHeight ctx rowIndex height band).objects
  -- What is counted is the background, the band with its hidden objects, and each visible object.
  have htally : printed.tally =
      (p.background band ctx : Counted (Option Color)).tally +
        ({ Tally.zero with bands := 1, hidden := band.hiddenCount } +
          ((band.printOrder.filter (·.printVisible)).mapM (p.printObject band ctx) :
            Counted (List (PrintedObject κ))).tally) := by
    rw [← hhidden]
    simp only [printed, printBandOfHeight, List.partition_eq_filter_filter]
    rfl
  rw [htally, tally_background, tally_printObjects, hcalculated, PrintedBand.share, hobjects]
  simp only [Band.heightShare, Band.share, Band.formulaCount, Tally.zero, Tally.mk_add_mk,
    Nat.zero_add, Nat.add_zero, Nat.add_assoc]

end Printer

theorem sum_share_designed (bands : List (Band κ)) :
    (bands.map Band.share).sum =
      { Tally.zero with
        formulas := (bands.map Band.formulaCount).sum
        hidden := (bands.map Band.hiddenCount).sum } := by
  induction bands with
  | nil => rfl
  | cons band rest ih =>
    rw [List.map_cons, List.sum_cons, ih]
    simp only [Band.share, Tally.zero, Tally.mk_add_mk, List.map_cons, List.sum_cons]

theorem sum_share_printed (bands : List (PrintedBand κ)) :
    (bands.map PrintedBand.share).sum =
      { Tally.zero with
        bands := bands.length
        objects := (bands.flatMap (·.objects)).length
        missingFields := (bands.flatMap (·.objects)).countP (·.lacksField)
        errors := (bands.flatMap (·.objects)).countP (·.hasFailed) } := by
  induction bands with
  | nil => rfl
  | cons band rest ih =>
    rw [List.map_cons, List.sum_cons, ih]
    simp only [PrintedBand.share, Tally.zero, Tally.mk_add_mk, List.flatMap_cons,
      List.length_append, List.countP_append, List.length_cons, Nat.add_comm 1]

/-! ## §3 Shares of a page -/

/-- The bands of a design that are printed on a page of a number of pages: the header bands, the
detail bands for each row, the summary bands for every page, on the last page also the others, and
the footer bands. -/
def Design.bandsOn (d : Design κ) (totalPages : Nat) (page : PrintedPage κ) : List (Band κ) :=
  d.bandsOfKind .header ++ (page.rows.indices.flatMap fun _ => d.bandsOfKind .detail) ++
    (if page.number = totalPages then d.bandsOfKind .summary
      else (d.bandsOfKind .summary).filter (·.summaryMode = .everyPage)) ++
    d.bandsOfKind .footer

/-- What the heights of the detail bands add to the tally for each row. -/
def Design.rowShare (d : Design κ) : Tally := ((d.bandsOfKind .detail).map Band.heightShare).sum

namespace Printer

variable [Coordinate κ] (p : Printer κ)

theorem tally_printBands (ctx : Context) (bands : List (Band κ)) :
    let printed : Counted (List (PrintedBand κ)) := bands.mapM (p.printBand ctx)
    printed.tally = (bands.map Band.share).sum + (printed.value.map PrintedBand.share).sum := by
  intro printed
  have hband : ∀ band : Band κ, (p.printBand ctx band : Counted (PrintedBand κ)).tally =
      band.share + (p.printBand ctx band : Counted (PrintedBand κ)).value.share := by
    intro band
    rw [printBand, Counted.tally_bind, tally_bandHeight, tally_printBandOfHeight]
    rfl
  simp only [printed, Counted.tally_mapM, Counted.value_mapM, hband, List.sum_map_add,
    List.map_map, Function.comp_def]

variable (d : Design κ) (master : Record) (rows : List Record)

theorem tally_rowHeights :
    (p.rowHeights d master rows : Counted (List (List κ))).tally =
      (rows.map fun _ => d.rowShare).sum := by
  simp only [rowHeights, Counted.tally_mapM, tally_bandHeight]
  show (rows.zipIdx.map fun _ => d.rowShare).sum = _
  rw [List.map_const', List.map_const', List.length_zipIdx]

/-- The heights of a row were counted before it is printed. -/
theorem tally_printRow (pageCtx : Context) (place : Record × Nat) :
    let printed : Counted (List (PrintedBand κ)) :=
      p.printRow d pageCtx place.2 place.1 (p.heightsOfRow d master rows place)
    d.rowShare + printed.tally =
      ((d.bandsOfKind .detail).map Band.share).sum +
        (printed.value.map PrintedBand.share).sum := by
  intro printed
  simp only [printed, printRow, heightsOfRow, ← List.map_prod_left_eq_zip, Counted.tally_mapM,
    Counted.value_mapM, List.map_map, Function.comp_def, Design.rowShare, ← List.sum_map_add,
    tally_printBandOfHeight]

/-- The detail bands of the rows of a range; the heights of these rows were counted before. -/
theorem tally_detailsOf (pageCtx : Context) {range : RowRange}
    (hrange : range.stop ≤ rows.length) :
    let numbered := (rows.zip (rows.zipIdx.map (p.heightsOfRow d master rows))).zipIdx
    let onPage := (numbered.drop range.start).take (range.stop - range.start)
    let printed : Counted (List (List (PrintedBand κ))) :=
      onPage.mapM fun ((row, heights), index) => p.printRow d pageCtx index row heights
    (range.indices.map fun _ => d.rowShare).sum + printed.tally =
      ((range.indices.flatMap fun _ => d.bandsOfKind .detail).map Band.share).sum +
        ((p.detailsOf d master rows pageCtx range).map PrintedBand.share).sum := by
  intro numbered onPage printed
  have honPage : onPage = (range.places rows).map fun place =>
      -- The rows on the page have their heights beside them, and their places in the data.
      ((place.1, p.heightsOfRow d master rows place), place.2) := by
    simp only [onPage, numbered, RowRange.places]
    rw [zipIdx_zip_map, ← List.map_drop, ← List.map_take]
  -- So both sums run over the places of the page.
  rw [detailsOf_eq_flatMap, ← range.map_places hrange, sum_map_flatMap, sum_map_flatMap,
    List.map_map, List.map_map]
  simp only [printed, Counted.tally_mapM, honPage, List.map_map, Function.comp_def,
    ← List.sum_map_add, tally_printRow]

/-- A page counts once, with its bands; the heights of its rows were counted before. -/
theorem tally_printPage (totalPages : Nat) {range : RowRange} (hrange : range.stop ≤ rows.length)
    (pageNumber : Nat) :
    let heights := rows.zipIdx.map (p.heightsOfRow d master rows)
    let page := p.pageOf d master rows totalPages range pageNumber
    (range.indices.map fun _ => d.rowShare).sum +
        (p.printPage d master rows heights totalPages range pageNumber :
          Counted (PrintedPage κ)).tally =
      { Tally.zero with pages := 1 } + ((d.bandsOn totalPages page).map Band.share).sum +
        (page.bands.map PrintedBand.share).sum := by
  intro heights page
  let ctx := p.pageContext master rows range pageNumber totalPages
  let print (bands : List (Band κ)) : Counted (List (PrintedBand κ)) := bands.mapM (p.printBand ctx)
  let onPage := ((rows.zip heights).zipIdx.drop range.start).take (range.stop - range.start)
  let details : Counted (List (List (PrintedBand κ))) :=
    onPage.mapM fun ((row, heights), index) => p.printRow d ctx index row heights
  let summaries := (d.bandsOfKind .summary).filter (·.isPrintedOn pageNumber totalPages)
  -- The bands designed for the page, in their order.
  have hdesigned : d.bandsOn totalPages page =
      d.bandsOfKind .header ++ (range.indices.flatMap fun _ => d.bandsOfKind .detail) ++
        summaries ++ d.bandsOfKind .footer := by
    simp only [summaries, filter_isPrintedOn]
    rfl
  -- The bands printed on it, in the same order.
  have hprinted : page.bands = (print (d.bandsOfKind .header)).value ++
      p.detailsOf d master rows ctx range ++ (print summaries).value ++
        (print (d.bandsOfKind .footer)).value := by
    simp only [print, Counted.value_mapM]
    exact p.bands_pageOf d master rows totalPages range pageNumber
  have hdetails : (range.indices.map fun _ => d.rowShare).sum + details.tally = _ :=
    p.tally_detailsOf d master rows ctx hrange
  -- What the page counts is one page, and what each of the four parts counts.
  have htally : (p.printPage d master rows heights totalPages range pageNumber :
      Counted (PrintedPage κ)).tally =
        { Tally.zero with pages := 1 } + ((print (d.bandsOfKind .header)).tally +
          (details.tally + ((print summaries).tally +
            ((print (d.bandsOfKind .footer)).tally + 0)))) := rfl
  have hbands : ∀ bands, (print bands).tally = _ := p.tally_printBands ctx
  -- The heights, counted early, are put to the details.
  have harrange : ∀ early page h h' s s' f f' : Tally,
      early + (page + (h + h' + (details.tally + (s + s' + (f + f' + 0))))) =
        page + (h + s + f) + (h' + s' + f') + (early + details.tally) := by
    intros
    abel
  rw [hprinted, hdesigned, htally, hbands, hbands, hbands, harrange, hdetails]
  simp only [List.map_append, List.sum_append]
  abel

/-! ## §4 The tally of a report -/

/-- The rows of the pages are all rows: what is summed up over rows is summed up page by page. -/
theorem sum_rows_eq_sum_pages (share : Tally) :
    (rows.map fun _ => share).sum = ((p.paginate d master rows).map fun range =>
      (range.indices.map fun _ => share).sum).sum := by
  have hindices : (p.paginate d master rows).flatMap RowRange.indices =
      List.range' 0 rows.length := (p.isPaging_paginate d master rows).tiles.flatMap_indices
  calc (rows.map fun _ => share).sum
      = ((List.range' 0 rows.length).map fun _ => share).sum := by
        rw [List.map_const', List.map_const', List.length_range']
    _ = ((p.paginate d master rows).map fun range =>
          (range.indices.map fun _ => share).sum).sum := by
        rw [← hindices, sum_map_flatMap]

theorem tally_print_shares :
    let report := p.print d master rows
    report.tally =
      { Tally.zero with pages := report.pages.length } +
        ((report.pages.flatMap (d.bandsOn report.pages.length)).map Band.share).sum +
        ((report.pages.flatMap (·.bands)).map PrintedBand.share).sum := by
  intro report
  let ranges := p.paginate d master rows
  let places := ranges.zipIdx
  let page (place : RowRange × Nat) : PrintedPage κ :=
    p.pageOf d master rows ranges.length place.1 (place.2 + 1)
  let later (place : RowRange × Nat) : Tally :=
    (p.printPage d master rows (rows.zipIdx.map (p.heightsOfRow d master rows)) ranges.length
      place.1 (place.2 + 1) : Counted (PrintedPage κ)).tally
  let early (place : RowRange × Nat) : Tally := (place.1.indices.map fun _ => d.rowShare).sum
  -- The report has a page for each range of rows.
  have hpages : report.pages = places.map page := p.pages_print d master rows
  have hlength : report.pages.length = ranges.length := by
    rw [hpages, List.length_map, List.length_zipIdx]
  -- Each page is taken together with the heights of its rows, which were counted before it.
  have hpage : ∀ place ∈ places, early place + later place =
      { Tally.zero with pages := 1 } + ((d.bandsOn ranges.length (page place)).map Band.share).sum +
        ((page place).bands.map PrintedBand.share).sum := by
    intro place hplace
    have hmem : place.1 ∈ ranges := List.fst_mem_of_mem_zipIdx hplace
    exact p.tally_printPage d master rows ranges.length
      ((p.isPaging_paginate d master rows).tiles.stop_le _ hmem) _
  -- The heights were measured for all rows, and each row is on one page.
  have hearly : (p.rowHeights d master rows : Counted (List (List κ))).tally =
      (places.map early).sum := by
    have hranges : p.paginate d master rows = places.map (·.1) := (List.zipIdx_map_fst 0 _).symm
    rw [tally_rowHeights, sum_rows_eq_sum_pages p d master, hranges, List.map_map]
    rfl
  -- What is counted is the heights first, and then page after page.
  have htally : report.tally = (p.rowHeights d master rows : Counted (List (List κ))).tally +
      (places.map later).sum := by
    simp only [report, print, printPages, Counted.tally_bind, Counted.tally_mapM,
      value_rowHeights]
    simp only [places, ranges, later, paginate, value_rowHeights]
  -- Each range counts one page.
  have hone : (places.map fun _ => ({ Tally.zero with pages := 1 } : Tally)).sum =
      { Tally.zero with pages := ranges.length } := by
    rw [Tally.sum_onePage, List.length_zipIdx]
  rw [htally, hearly, ← List.sum_map_add, List.map_congr_left hpage, List.sum_map_add,
    List.sum_map_add, hone, hlength, hpages, sum_map_flatMap, sum_map_flatMap, List.map_map,
    List.map_map]
  rfl

/-- The tally of a report is made of its pages, the bands it prints, and their designs. -/
theorem tally_print :
    let report := p.print d master rows
    let designed := report.pages.flatMap (d.bandsOn report.pages.length)
    let printed := report.pages.flatMap (·.bands)
    let objects := printed.flatMap (·.objects)
    report.tally =
      { pages := report.pages.length, bands := printed.length, objects := objects.length
        formulas := (designed.map Band.formulaCount).sum
        missingFields := objects.countP (·.lacksField), errors := objects.countP (·.hasFailed)
        hidden := (designed.map Band.hiddenCount).sum } := by
  intro report designed printed objects
  -- The shares of designed and printed bands are added up number by number.
  rw [show report.tally = _ from p.tally_print_shares d master rows, sum_share_designed,
    sum_share_printed]
  simp only [Tally.zero, Tally.mk_add_mk, Nat.zero_add, Nat.add_zero]
  rfl

variable {p d master rows} in
/-- The bands of a page are instances of the bands that belong on it, one by one. -/
theorem IsPage.instances {totalPages : Nat} {page : PrintedPage κ}
    (h : p.IsPage d master rows totalPages page) :
    List.Forall₂ (fun band printed => ∃ ctx, p.IsInstance ctx band printed)
      (d.bandsOn totalPages page) page.bands := by
  obtain ⟨headers, details, summaries, footers, hbands, hheaders, hdetails, hsummaries,
    hfooters⟩ := h
  -- The bands of all rows on the page are the detail bands, row after row.
  have hplaces : (page.rows.indices.flatMap fun _ => d.bandsOfKind .detail) =
      (d.detailPlaces page.rows.indices).map (·.2) := by
    simp [Design.detailPlaces, List.map_flatMap, Function.comp_def]
  have hrows : List.Forall₂ (fun band printed => ∃ ctx, p.IsInstance ctx band printed)
      (page.rows.indices.flatMap fun _ => d.bandsOfKind .detail) details := by
    -- Each of them is printed for its row, hence as an instance.
    rw [hplaces, List.forall₂_map_left_iff]
    refine hdetails.imp fun place printed hshows => ?_
    obtain ⟨row, -, -, ctx, -, -, -, -, hinstance⟩ := hshows.instance_row
    exact ⟨ctx, hinstance⟩
  rw [hbands, Design.bandsOn]
  exact List.rel_append (List.rel_append (List.rel_append
    (hheaders.imp fun _ _ hband => ⟨_, hband⟩) hrows)
    (hsummaries.imp fun _ _ hband => ⟨_, hband⟩)) (hfooters.imp fun _ _ hband => ⟨_, hband⟩)

end Printer

variable [Coordinate κ]

/-- **The tally accounts for the report.** The bands of a report are instances, one by one, of the
bands of the design that belong on its pages. Its tally holds the number of its pages, of its bands
and of their controls; the number of controls of these bands that are not printed; the number of
printed controls that show a fallback text because the data lack a field; and for each instance of a
band a formula for its height if it has one, a formula for its background if it has one, and one for
each calculated control that it prints. -/
theorem print_accounts (s : PrintSession κ) (d : Design κ) (master : Record)
    (rows : List Record) :
    let report := (s.print d master rows).1
    let designed := report.pages.flatMap (d.bandsOn report.pages.length)
    let printed := report.pages.flatMap (·.bands)
    let objects := printed.flatMap (·.objects)
    List.Forall₂ (fun band b => ∃ ctx, s.printer.IsInstance ctx band b) designed printed ∧
    report.tally.pages = report.pages.length ∧
    report.tally.bands = printed.length ∧
    report.tally.objects = objects.length ∧
    report.tally.hidden = (designed.map Band.hiddenCount).sum ∧
    report.tally.missingFields = objects.countP (·.lacksField) ∧
    report.tally.formulas = (designed.map Band.formulaCount).sum := by
  intro report designed printed objects
  have hreport : report = s.printer.print d master rows := s.print_eq d master rows
  -- The tally is that of printing without a cache.
  have htally : report.tally = _ := hreport ▸ s.printer.tally_print d master rows
  have hinstances : List.Forall₂ (fun band b => ∃ ctx, s.printer.IsInstance ctx band b)
      designed printed := by
    -- Bands are designed and printed page by page.
    refine forall₂_flatMap fun page hpage => ?_
    rw [hreport] at hpage ⊢
    exact (s.printer.isPage_of_mem_pages_print d master rows hpage).instances
  rw [htally]
  exact ⟨hinstances, rfl, rfl, rfl, rfl, rfl, rfl⟩

end BandedReport
