import BandedReport.Proofs.Counterparts
import BandedReport.Proofs.Print.Caching
import BandedReport.Proofs.Print.Pages

/-!
# What a report holds

A print pass loses no row, prints none twice and keeps their order. The pages tile the rows; a page
holds the header bands, the detail bands of each of its rows, the summary bands that belong on it
and the footer bands, in this order; and the detail bands of all pages, read one page after the
other, are those of all rows.

* `Printer.IsInstance` says that a printed band is a band, printed in a context;
* `Printer.ShowsRow` says that it is a detail band, printed for a row;
* `Printer.IsPage` says what a page holds.
-/

namespace BandedReport

open Formula (Context)

/-! ## §1 Lists of a pass -/

/-- Members of a list side by side with something made from them and their numbers, numbered. -/
theorem zipIdx_zip_map {α β : Type} (l : List α) (f : α × Nat → β) :
    (l.zip (l.zipIdx.map f)).zipIdx = l.zipIdx.map fun place => ((place.1, f place), place.2) := by
  apply List.ext_getElem
  · simp
  · intro i h₁ h₂
    simp

/-- The rows of a range, each with its number among all rows. -/
def RowRange.places {α : Type} (range : RowRange) (rows : List α) : List (α × Nat) :=
  (rows.zipIdx.drop range.start).take (range.stop - range.start)

theorem RowRange.map_places {α : Type} {rows : List α} (range : RowRange)
    (hrange : range.stop ≤ rows.length) : (range.places rows).map (·.2) = range.indices := by
  rw [places, List.map_take, List.map_drop, List.zipIdx_map_snd, RowRange.indices,
    List.drop_range', List.take_range'_of_length_ge (by omega)]
  simp

@[simp] theorem Counted.value_mapM {α β : Type} (f : α → Counted β) (l : List α) :
    (l.mapM f).value = l.map fun a => (f a).value := by
  induction l with
  | nil => rfl
  | cons a as ih => rw [List.mapM_cons, List.map_cons, ← ih]; rfl

variable {κ : Type} [Coordinate κ]

/-- Rows with every detail band: row by row, and on each row from top to bottom. -/
def Design.detailPlaces (d : Design κ) (indices : List Nat) : List (Nat × Band κ) :=
  indices.flatMap fun i => (d.bandsOfKind .detail).map fun band => (i, band)

omit [Coordinate κ] in
theorem Design.kind_of_mem_bandsOfKind {d : Design κ} {kind : BandKind} {band : Band κ}
    (h : band ∈ d.bandsOfKind kind) : band.kind = kind :=
  eq_of_beq (List.mem_filter.mp h).2

namespace Printer

variable (p : Printer κ)

/-- The printed band is a band in a context: it has the identity and the background of the band,
and its controls are the visible ones of the band, lowest first, printed in the context. -/
structure IsInstance (ctx : Context) (band : Band κ) (printed : PrintedBand κ) : Prop where
  bandId : printed.bandId = band.id
  name : printed.name = band.name
  kind : printed.kind = band.kind
  background : printed.background = (p.background band ctx : Counted (Option Color)).value
  objects : printed.objects = (band.printOrder.filter (·.printVisible)).map fun c =>
    (p.printObject band ctx c : Counted (PrintedObject κ)).value

/-- The printed band shows the row of a number in a detail band: it carries the number, has the
height that was computed for the row, and is the band in a context with this row. -/
structure ShowsRow (master : Record) (rows : List Record) (place : Nat × Band κ)
    (printed : PrintedBand κ) : Prop where
  rowIndex : printed.rowIndex = some place.1
  instance_row : ∃ row, rows[place.1]? = some row ∧
    printed.height = (p.bandHeight place.2 (p.layoutContext master rows place.1 row) :
      Counted κ).value ∧
    ∃ ctx : Context, ctx.master = master ∧ ctx.allRows = rows ∧ ctx.detailRow = some row ∧
      ctx.rowIndex = place.1 ∧ p.IsInstance ctx place.2 printed

variable (d : Design κ) (master : Record) (rows : List Record)

/-- A page of a number of pages holds all header bands, the detail bands of its rows, the summary
bands for every page, on the last page also the others, and all footer bands. -/
def IsPage (totalPages : Nat) (page : PrintedPage κ) : Prop :=
  let ctx := p.pageContext master rows page.rows page.number totalPages
  ∃ headers details summaries footers,
    page.bands = headers ++ details ++ summaries ++ footers ∧
    List.Forall₂ (p.IsInstance ctx) (d.bandsOfKind .header) headers ∧
    List.Forall₂ (p.ShowsRow master rows) (d.detailPlaces page.rows.indices) details ∧
    List.Forall₂ (p.IsInstance ctx)
      (if page.number = totalPages then d.bandsOfKind .summary
        else (d.bandsOfKind .summary).filter (·.summaryMode = .everyPage)) summaries ∧
    List.Forall₂ (p.IsInstance ctx) (d.bandsOfKind .footer) footers

theorem isInstance_printBandOfHeight (ctx : Context) (rowIndex : Option Nat) (height : κ)
    (band : Band κ) :
    p.IsInstance ctx band
      (p.printBandOfHeight ctx rowIndex height band : Counted (PrintedBand κ)).value := by
  refine ⟨rfl, rfl, rfl, rfl, ?_⟩
  show (List.mapM _ (band.printOrder.partition (·.printVisible)).1 : Counted _).value = _
  rw [List.partition_eq_filter_filter, Counted.value_mapM]

/-! ## §2 Rows -/

/-- The heights of the detail bands of a row, before the pages are known. -/
def heightsOfRow (place : Record × Nat) : List κ :=
  (d.bandsOfKind .detail).map fun band =>
    (p.bandHeight band (p.layoutContext master rows place.2 place.1) : Counted κ).value

theorem value_rowHeights :
    (p.rowHeights d master rows : Counted (List (List κ))).value =
      rows.zipIdx.map (p.heightsOfRow d master rows) := by
  simp only [rowHeights, Counted.value_mapM]
  rfl

/-- A row is printed with each detail band, at the height that was computed for both. -/
theorem showsRow_printRow {pageCtx : Context} (hmaster : pageCtx.master = master)
    (hrows : pageCtx.allRows = rows) {row : Record} {index : Nat} (hrow : rows[index]? = some row) :
    List.Forall₂ (p.ShowsRow master rows)
      ((d.bandsOfKind .detail).map fun band => (index, band))
      (p.printRow d pageCtx index row (p.heightsOfRow d master rows (row, index)) :
        Counted (List (PrintedBand κ))).value := by
  rw [printRow, heightsOfRow, ← List.map_prod_left_eq_zip, Counted.value_mapM, List.map_map,
    List.forall₂_map_left_iff, List.forall₂_map_right_iff, List.forall₂_same]
  intro band _
  exact ⟨rfl, row, hrow, rfl, { pageCtx.forRow row with rowIndex := index }, hmaster, hrows, rfl,
    rfl, p.isInstance_printBandOfHeight _ _ _ _⟩

/-- The detail bands of the rows of a range. -/
def detailsOf (pageCtx : Context) (range : RowRange) : List (PrintedBand κ) :=
  let numbered := (rows.zip (rows.zipIdx.map (p.heightsOfRow d master rows))).zipIdx
  let onPage := (numbered.drop range.start).take (range.stop - range.start)
  (onPage.map fun ((row, heights), index) =>
    (p.printRow d pageCtx index row heights : Counted (List (PrintedBand κ))).value).flatten

theorem detailsOf_eq_flatMap (pageCtx : Context) (range : RowRange) :
    p.detailsOf d master rows pageCtx range = (range.places rows).flatMap fun place =>
      (p.printRow d pageCtx place.2 place.1 (p.heightsOfRow d master rows place) :
        Counted (List (PrintedBand κ))).value := by
  simp only [detailsOf]
  rw [zipIdx_zip_map, ← List.map_drop, ← List.map_take, List.map_map, List.flatMap_def]
  rfl

theorem showsRow_detailsOf {pageCtx : Context} (hmaster : pageCtx.master = master)
    (hrows : pageCtx.allRows = rows) {range : RowRange} (hrange : range.stop ≤ rows.length) :
    List.Forall₂ (p.ShowsRow master rows) (d.detailPlaces range.indices)
      (p.detailsOf d master rows pageCtx range) := by
  rw [detailsOf_eq_flatMap, ← range.map_places hrange, Design.detailPlaces, List.flatMap_map]
  refine forall₂_flatMap fun place hplace => ?_
  -- The row of a place is the one of its number.
  have hmem : place ∈ rows.zipIdx := List.mem_of_mem_drop (List.mem_of_mem_take hplace)
  exact p.showsRow_printRow d master rows hmaster hrows (List.mem_zipIdx_iff_getElem?.mp hmem)

/-! ## §3 Pages -/

omit [Coordinate κ] in
/-- On the last page all summary bands are printed, elsewhere those for every page. -/
theorem filter_isPrintedOn (bands : List (Band κ)) (pageNumber totalPages : Nat) :
    bands.filter (·.isPrintedOn pageNumber totalPages) =
      if pageNumber = totalPages then bands
      else bands.filter (·.summaryMode = .everyPage) := by
  split
  · rename_i hlast
    refine List.filter_eq_self.mpr fun band _ => ?_
    rw [Band.isPrintedOn]
    cases band.summaryMode <;> simp [hlast]
  · rename_i hlast
    refine List.filter_congr fun band _ => ?_
    rw [Band.isPrintedOn]
    cases band.summaryMode <;> simp [hlast]

/-- Bands that are no detail bands are printed once each, in their order. -/
theorem isInstance_printBands (ctx : Context) (bands : List (Band κ)) :
    List.Forall₂ (p.IsInstance ctx) bands
      (bands.map fun band => (p.printBand ctx band : Counted (PrintedBand κ)).value) := by
  rw [List.forall₂_map_right_iff, List.forall₂_same]
  exact fun band _ => p.isInstance_printBandOfHeight ctx none _ band

/-- The page of some rows, with the heights that were computed for all rows. -/
def pageOf (totalPages : Nat) (range : RowRange) (pageNumber : Nat) : PrintedPage κ :=
  (p.printPage d master rows (rows.zipIdx.map (p.heightsOfRow d master rows)) totalPages range
    pageNumber : Counted (PrintedPage κ)).value

theorem bands_pageOf (totalPages : Nat) (range : RowRange) (pageNumber : Nat) :
    let ctx := p.pageContext master rows range pageNumber totalPages
    let print (bands : List (Band κ)) :=
      bands.map fun band => (p.printBand ctx band : Counted (PrintedBand κ)).value
    (p.pageOf d master rows totalPages range pageNumber).bands =
      print (d.bandsOfKind .header) ++ p.detailsOf d master rows ctx range ++
        print ((d.bandsOfKind .summary).filter (·.isPrintedOn pageNumber totalPages)) ++
        print (d.bandsOfKind .footer) := by
  simp only [pageOf, printPage, Counted.value_bind, Counted.value_mapM, Counted.value_pure]
  rfl

theorem isPage_pageOf (totalPages : Nat) {range : RowRange} (hrange : range.stop ≤ rows.length)
    (pageNumber : Nat) :
    p.IsPage d master rows totalPages (p.pageOf d master rows totalPages range pageNumber) := by
  refine ⟨_, _, _, _, p.bands_pageOf d master rows totalPages range pageNumber, ?_, ?_, ?_, ?_⟩
  · exact p.isInstance_printBands _ _
  · exact p.showsRow_detailsOf d master rows rfl rfl hrange
  · rw [filter_isPrintedOn]
    exact p.isInstance_printBands _ _
  · exact p.isInstance_printBands _ _

/-! ## §4 Reports -/

variable {p d master rows} in
/-- The detail bands of a page are those of its rows: no other band has their kind. -/
theorem IsPage.showsRow_filter {totalPages : Nat} {page : PrintedPage κ}
    (h : p.IsPage d master rows totalPages page) :
    List.Forall₂ (p.ShowsRow master rows) (d.detailPlaces page.rows.indices)
      (page.bands.filter (·.kind == .detail)) := by
  obtain ⟨headers, details, summaries, footers, hbands, hheaders, hdetails, hsummaries,
    hfooters⟩ := h
  -- A band that is printed is of the kind it was designed as.
  have hkind : ∀ {ctx bands kind} {printed : List (PrintedBand κ)},
      List.Forall₂ (p.IsInstance ctx) bands printed → (∀ band ∈ bands, band.kind = kind) →
        ∀ b ∈ printed, b.kind = kind := fun hprinted hall =>
    forall_mem_of_forall₂ hprinted fun band hband b hb => hb.kind.trans (hall band hband)
  have hheader : ∀ b ∈ headers, b.kind = .header :=
    hkind hheaders fun _ => Design.kind_of_mem_bandsOfKind
  -- Details are of their kind by their places.
  have hdetail : ∀ b ∈ details, b.kind = .detail := by
    refine forall_mem_of_forall₂ hdetails fun place hplace b hb => ?_
    obtain ⟨row, -, -, ctx, -, -, -, -, hinstance⟩ := hb.instance_row
    obtain ⟨i, -, hi⟩ := List.mem_flatMap.mp hplace
    obtain ⟨band, hband, rfl⟩ := List.mem_map.mp hi
    exact hinstance.kind.trans (Design.kind_of_mem_bandsOfKind hband)
  have hsummary : ∀ b ∈ summaries, b.kind = .summary := by
    refine hkind hsummaries fun band hband => Design.kind_of_mem_bandsOfKind (d := d) ?_
    split at hband
    · exact hband
    · exact List.mem_of_mem_filter hband
  have hfooter : ∀ b ∈ footers, b.kind = .footer :=
    hkind hfooters fun _ => Design.kind_of_mem_bandsOfKind
  -- So the three other parts have no detail band, and all of the details are.
  have hnone : ∀ {kind : BandKind} {bands : List (PrintedBand κ)}, kind ≠ .detail →
      (∀ b ∈ bands, b.kind = kind) → bands.filter (·.kind == .detail) = [] := by
    intro kind bands hne hall
    exact List.filter_eq_nil_iff.mpr fun b hb => by simp [hall b hb, hne]
  have hself : details.filter (·.kind == .detail) = details :=
    List.filter_eq_self.mpr fun b hb => by simp [hdetail b hb]
  rw [hbands, List.filter_append, List.filter_append, List.filter_append, hself,
    hnone (by decide) hheader, hnone (by decide) hsummary, hnone (by decide) hfooter,
    List.nil_append, List.append_nil, List.append_nil]
  exact hdetails

theorem isPaging_paginate : IsPaging (p.paginate d master rows) rows.length := by
  have hpaging := Paging.isPaging_split (p := Paging.choose p.options d.settings)
    (fun count hcount => (Paging.choose_eq_byRows_iff.mp hcount).2)
    ((p.rowHeights d master rows : Counted (List (List κ))).value.map Coordinate.sum)
  have hlength : ((p.rowHeights d master rows : Counted (List (List κ))).value.map
      Coordinate.sum).length = rows.length := by
    rw [value_rowHeights, List.length_map, List.length_map, List.length_zipIdx]
  rwa [hlength] at hpaging

/-- The pages of a report are those of the ranges into which the rows are split. -/
theorem pages_print :
    (p.print d master rows).pages = (p.paginate d master rows).zipIdx.map fun place =>
      p.pageOf d master rows (p.paginate d master rows).length place.1 (place.2 + 1) := by
  simp only [print, printPages, Counted.value_bind, Counted.value_mapM, value_rowHeights,
    paginate, pageOf]

theorem map_rows_pages_print :
    (p.print d master rows).pages.map (·.rows) = p.paginate d master rows := by
  rw [pages_print, List.map_map]
  exact List.zipIdx_map_fst 0 _

theorem map_number_pages_print :
    (p.print d master rows).pages.map (·.number) =
      List.range' 1 (p.print d master rows).pages.length := by
  rw [pages_print, List.map_map, List.length_map, List.length_zipIdx]
  have hsucc : (fun place : RowRange × Nat => place.2 + 1) = (1 + ·) ∘ Prod.snd :=
    funext fun place => Nat.add_comm _ _
  show (p.paginate d master rows).zipIdx.map (fun place => place.2 + 1) = _
  rw [hsucc, ← List.map_map, List.zipIdx_map_snd, List.map_add_range']

theorem isPage_of_mem_pages_print {page : PrintedPage κ}
    (h : page ∈ (p.print d master rows).pages) :
    p.IsPage d master rows (p.print d master rows).pages.length page := by
  have hlength : (p.print d master rows).pages.length = (p.paginate d master rows).length := by
    rw [pages_print, List.length_map, List.length_zipIdx]
  rw [hlength]
  rw [pages_print] at h
  obtain ⟨⟨range, i⟩, hplace, rfl⟩ := List.mem_map.mp h
  have hmem : range ∈ p.paginate d master rows := List.fst_mem_of_mem_zipIdx hplace
  have hstop : range.stop ≤ rows.length :=
    (p.isPaging_paginate d master rows).tiles.stop_le range hmem
  exact p.isPage_pageOf d master rows _ hstop (i + 1)

end Printer

/-- **A report shows every row once, in order.** The ranges of rows of its pages are those into
which the rows are split: there is a page, they tile the rows, no page is empty unless there are no
rows, and with a fixed number of rows every page but the last is full. The detail bands, page after
page, show every row with every detail band, rows in order and bands from top to bottom. The pages
are numbered from one, and each begins with all header bands and ends with all footer bands; before
these stand the summary bands for every page, and on the last page all summary bands. -/
theorem print_showsRows (s : PrintSession κ) (d : Design κ) (master : Record)
    (rows : List Record) :
    let pages := (s.print d master rows).1.pages
    let ranges := pages.map (·.rows)
    ranges = s.printer.paginate d master rows ∧
    IsPaging ranges rows.length ∧
    (∀ count, s.printer.options.rowsPerPage.or d.settings.rowsPerPage = some count → 0 < count →
      ∀ r ∈ ranges.dropLast, r.stop = r.start + count) ∧
    List.Forall₂ (s.printer.ShowsRow master rows) (d.detailPlaces (List.range rows.length))
      ((pages.flatMap (·.bands)).filter (·.kind == .detail)) ∧
    pages.map (·.number) = List.range' 1 pages.length ∧
    ∀ page ∈ pages, s.printer.IsPage d master rows pages.length page := by
  intro pages ranges
  -- A session prints as its printer does, whatever it has in its cache.
  have hpages : pages = (s.printer.print d master rows).pages :=
    congrArg Report.pages (s.print_eq d master rows)
  have hranges : ranges = s.printer.paginate d master rows := by
    rw [← s.printer.map_rows_pages_print d master rows, ← hpages]
  have hpaging : IsPaging ranges rows.length := hranges ▸ s.printer.isPaging_paginate d master rows
  have hpage : ∀ page ∈ pages, s.printer.IsPage d master rows pages.length page := by
    rw [hpages]
    exact fun page => s.printer.isPage_of_mem_pages_print d master rows
  -- Of the six parts, the third, the fourth and the one about page numbers are left.
  refine ⟨hranges, hpaging, fun count hcount hpos => ?_, ?_, ?_, hpage⟩
  · intro r hr
    rw [hranges, Printer.paginate, Printer.pagesFor,
      Paging.choose_eq_byRows_iff.mpr ⟨hcount, hpos⟩] at hr
    exact Paging.stop_eq_of_mem_dropLast_split hpos hr
  · -- The rows of the pages are all rows.
    have hindices : List.range rows.length = pages.flatMap fun page => page.rows.indices := by
      rw [List.range_eq_range', ← Nat.sub_zero rows.length, ← hpaging.tiles.flatMap_indices,
        List.flatMap_map]
    rw [hindices, Design.detailPlaces, List.flatMap_assoc, List.filter_flatMap]
    exact forall₂_flatMap fun page hmem => (hpage page hmem).showsRow_filter
  · rw [hpages]
    exact s.printer.map_number_pages_print d master rows

private def newYear : DateTime := ⟨⟨2023, 1, 1, by decide, by decide⟩, .midnight⟩

/-- A design of one band of each kind. -/
private def fourBands : Design Float :=
  .ofBands [.ofHeight "h" "Header" .header 0 20, .ofHeight "d" "Detail" .detail 20 20,
    .ofHeight "s" "Summary" .summary 40 20, .ofHeight "f" "Footer" .footer 60 20] ⟨newYear⟩

private def twoPerPage : PrintSession Float :=
  .start ⟨.builtin, { PrintOptions.empty with rowsPerPage := some 2 }, newYear⟩

/-- Three rows, two on a page: all pages but the last have two. -/
theorem print_showsRows_twoPerPage :
    let ranges := (twoPerPage.print fourBands .empty [.empty, .empty, .empty]).1.pages.map (·.rows)
    ranges = [⟨0, 2⟩, ⟨2, 3⟩] ∧
    (twoPerPage.printer.options.rowsPerPage.or fourBands.settings.rowsPerPage = some 2 ∧ 0 < 2) ∧
    ∀ r ∈ ranges.dropLast, r.stop = r.start + 2 :=
  ⟨by decide +kernel, ⟨rfl, by decide⟩, (print_showsRows twoPerPage fourBands .empty
    [.empty, .empty, .empty]).2.2.1 2 rfl (by decide)⟩

end BandedReport
