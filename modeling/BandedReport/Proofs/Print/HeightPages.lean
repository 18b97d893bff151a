import BandedReport.Proofs.Decimal.Extent
import BandedReport.Proofs.Print.Conservation

/-!
# Pages of a height

Where a height is given for the rows of a page, pages are filled greedily: a page takes rows as long
as they fit, and at least one. So a page with more than one row is no higher than the limit, and the
first row of the next page would not have fitted on it any more.

* `Paging.splitHeights_fits` and `Paging.splitHeights_full` are the two halves for the loop over the
  row heights, whatever these are; its invariant is that the running total is the height of the rows
  since the present page began;
* `PrintedPage.rowHeights` reads the heights of the rows off a page as it is printed, and
  `Printer.IsPage.rowHeights_eq` says that they are the heights the rows were split by;
* `Printer.fits_of_mem_pages_print` and `Printer.isChain_pages_print` carry the two halves from the
  loop to the pages of a report;
* `print_fillsPages` puts everything together for reports in doubles, where no height of rows is a
  NaN.
-/

namespace BandedReport

open Formula (Outcome)

variable {κ : Type} [Coordinate κ]

/-! ## §1 The loop over the heights -/

theorem Coordinate.sum_concat (xs : List κ) (x : κ) : sum (xs ++ [x]) = sum xs + x := by
  simp [sum]

/-- The first of the rows that are left, and those behind it. -/
private theorem split_of_drop {α : Type} {rows rest : List α} {next : Nat} {a : α}
    (h : rows.drop next = a :: rest) : rows[next]? = some a ∧ rows.drop (next + 1) = rest := by
  constructor
  · rw [← Nat.add_zero next, ← List.getElem?_drop, h, List.getElem?_cons_zero]
  · rw [← List.drop_drop, h, List.drop_one, List.tail_cons]

namespace RowRange

/-- One more row on a range adds it to the slice. -/
theorem slice_succ {α : Type} {rows rest : List α} {start next : Nat} {a : α}
    (hle : start ≤ next) (hrest : rows.drop next = a :: rest) :
    (slice ⟨start, next + 1⟩ rows : List α) = slice ⟨start, next⟩ rows ++ [a] := by
  have ha : rows[next]? = some a := (split_of_drop hrest).1
  simp only [slice]
  rw [show next + 1 - start = (next - start) + 1 by omega, List.take_add_one, List.getElem?_drop,
    show start + (next - start) = next by omega, ha, Option.toList_some]

end RowRange

namespace Paging

/-- The page has one row at most, or it does not exceed the limit. -/
def Fits (limit : κ) (heights : List κ) (r : RowRange) : Prop :=
  r.stop ≤ r.start + 1 ∨ ¬ limit < Coordinate.sum (r.slice heights)

/-- The row that comes behind the page would exceed the limit. -/
def IsFull (limit : κ) (heights : List κ) (r next : RowRange) : Prop :=
  ∃ h, heights[next.start]? = some h ∧ limit < Coordinate.sum (r.slice heights) + h

/-- Where the loop over the heights is: the present page begins at `start`, the rows before `next`
have been looked at, `used` is the height of those on the present page, and they fit. -/
structure AtRow (limit : κ) (heights : List κ) (start next : Nat) (used : κ) : Prop where
  le : start ≤ next
  used_eq : used = Coordinate.sum (RowRange.slice ⟨start, next⟩ heights)
  fits : Fits limit heights ⟨start, next⟩

variable {limit used h : κ} {heights rest : List κ} {start next : Nat}

theorem atRow_zero (limit : κ) (heights : List κ) :
    AtRow limit heights 0 0 (Coordinate.ofNat 0) :=
  ⟨Nat.le_refl 0, rfl, .inl (Nat.zero_le _)⟩

/-- Closing the page: the next one begins with the row that did not fit. -/
theorem AtRow.close (hrest : heights.drop next = h :: rest) :
    AtRow limit heights next (next + 1) (Coordinate.ofNat 0 + h) := by
  refine ⟨Nat.le_succ next, ?_, .inl (Nat.le_refl _)⟩
  rw [RowRange.slice_succ (Nat.le_refl next) hrest, Coordinate.sum_concat]
  simp [RowRange.slice, Coordinate.sum]

/-- Going on: a row is put on the page when it is the first there, or when it fits. -/
theorem AtRow.goOn (hrow : AtRow limit heights start next used)
    (hrest : heights.drop next = h :: rest)
    (hopen : ¬ (start < next ∧ limit < used + h)) :
    AtRow limit heights start (next + 1) (used + h) := by
  have hsum : used + h = Coordinate.sum (RowRange.slice ⟨start, next + 1⟩ heights) := by
    rw [RowRange.slice_succ hrow.le hrest, Coordinate.sum_concat, hrow.used_eq]
  refine ⟨Nat.le_succ_of_le hrow.le, hsum, ?_⟩
  rcases Nat.lt_or_ge start next with hlt | hge
  · right
    rw [← hsum]
    exact fun hlimit => hopen ⟨hlt, hlimit⟩
  · exact .inl (Nat.succ_le_succ hge)

/-- Every page of the loop has one row at most or fits. -/
theorem splitHeights_fits (hrow : AtRow limit heights start next used)
    (hrest : heights.drop next = rest) :
    ∀ r ∈ splitHeights limit start next used rest, Fits limit heights r := by
  induction rest generalizing start next used with
  | nil =>
    -- The last page is closed where the rows end.
    intro r hr
    rw [splitHeights, List.mem_singleton] at hr
    rw [hr]
    exact hrow.fits
  | cons h rest ih =>
    have hnext := (split_of_drop hrest).2
    rw [splitHeights]
    split
    · -- A page is closed before a row that does not fit, and the next one begins with it.
      exact List.forall_mem_cons.mpr ⟨hrow.fits, ih (.close hrest) hnext⟩
    · -- Otherwise the page goes on.
      rename_i hopen
      simp only [Bool.and_eq_true, decide_eq_true_eq] at hopen
      exact ih (hrow.goOn hrest hopen) hnext

/-- The first page of the loop begins where the present page does. -/
theorem start_of_head?_splitHeights (limit used : κ) (start next : Nat) (rest : List κ) :
    ∀ r ∈ (splitHeights limit start next used rest).head?, r.start = start := by
  induction rest generalizing next used with
  | nil => simp [splitHeights]
  | cons h rest ih =>
    rw [splitHeights]
    split
    · simp
    · exact ih _ _

/-- Every page of the loop but the last is full. -/
theorem splitHeights_full (hrow : AtRow limit heights start next used)
    (hrest : heights.drop next = rest) :
    (splitHeights limit start next used rest).IsChain (IsFull limit heights) := by
  induction rest generalizing start next used with
  -- The last page need not be full.
  | nil => exact .singleton _
  | cons h rest ih =>
    obtain ⟨hfirst, hnext⟩ := split_of_drop hrest
    rw [splitHeights]
    split
    · rename_i hclose
      simp only [Bool.and_eq_true, decide_eq_true_eq] at hclose
      refine List.isChain_cons.mpr ⟨fun r hr => ?_, ih (.close hrest) hnext⟩
      -- The page that follows begins with the row that did not fit.
      refine ⟨h, ?_, by rw [← hrow.used_eq]; exact hclose.2⟩
      rw [start_of_head?_splitHeights _ _ _ _ _ r hr, hfirst]
    · -- The page goes on, with the height of the row added.
      rename_i hopen
      simp only [Bool.and_eq_true, decide_eq_true_eq] at hopen
      exact ih (hrow.goOn hrest hopen) hnext

/-- A height is chosen when no positive number of rows is asked for and a positive height is. -/
theorem choose_eq_byHeight {o : PrintOptions κ} {s : DesignSettings κ} {limit : κ}
    (hrows : ∀ count, o.rowsPerPage.or s.rowsPerPage = some count → count = 0)
    (hheight : o.pageBodyHeight.or s.pageBodyHeight = some limit)
    (hpos : Coordinate.ofNat 0 < limit) : choose o s = byHeight limit := by
  have hnone : (o.rowsPerPage.or s.rowsPerPage).filter (fun n => 0 < n) = none := by
    rw [Option.filter_eq_none_iff]
    intro count hcount
    simp [hrows count hcount]
  rw [choose, hnone, hheight, Option.filter_some_pos (by simpa using hpos)]

/-- Pages of a height fit, and all but the last are full. -/
theorem split_byHeight (limit : κ) (heights : List κ) :
    (∀ r ∈ (byHeight limit).split heights, Fits limit heights r) ∧
      ((byHeight limit).split heights).IsChain (IsFull limit heights) := by
  unfold Paging.split
  cases heights with
  | nil => exact ⟨by simp [Fits], .singleton _⟩
  | cons h rest =>
    have hstart := atRow_zero limit (h :: rest)
    exact ⟨splitHeights_fits hstart rfl, splitHeights_full hstart rfl⟩

end Paging

/-! ## §2 Heights on a printed page -/

namespace PrintedPage

/-- The height of a row on a page: the sum of the heights of the detail bands printed for it. -/
def rowHeight (page : PrintedPage κ) (index : Nat) : κ :=
  Coordinate.sum <|
    (page.bands.filter fun b => b.kind == .detail && b.rowIndex == some index).map (·.height)

/-- The heights of the rows on a page, in their order. -/
def rowHeights (page : PrintedPage κ) : List κ := page.rows.indices.map page.rowHeight

/-- The height of all rows on a page, added from left to right. -/
def bodyHeight (page : PrintedPage κ) : κ := Coordinate.sum page.rowHeights

end PrintedPage

namespace Printer

variable {p : Printer κ} {d : Design κ} {master : Record} {rows : List Record}

/-- Of all detail bands of a page, those that carry the number of a row show this row. -/
private theorem showsRow_filter_rowIndex (index : Nat) {places : List (Nat × Band κ)}
    {bands : List (PrintedBand κ)} (h : List.Forall₂ (p.ShowsRow master rows) places bands) :
    List.Forall₂ (p.ShowsRow master rows) (places.filter (·.1 == index))
      (bands.filter (·.rowIndex == some index)) := by
  induction h with
  | nil => exact .nil
  | @cons place b _ _ hb _ ih =>
    rw [List.filter_cons, List.filter_cons, hb.rowIndex]
    by_cases hindex : place.1 = index
    · simpa [hindex] using List.Forall₂.cons hb ih
    · simpa [hindex] using ih

omit [Coordinate κ] in
private theorem filter_detailPlaces_of_notMem (d : Design κ) {indices : List Nat} {index : Nat}
    (hindex : index ∉ indices) : (d.detailPlaces indices).filter (·.1 == index) = [] := by
  refine List.filter_eq_nil_iff.mpr fun place hplace => ?_
  obtain ⟨i, hi, hmem⟩ := List.mem_flatMap.mp hplace
  obtain ⟨band, -, rfl⟩ := List.mem_map.mp hmem
  simpa using fun heq : i = index => hindex (heq ▸ hi)

omit [Coordinate κ] in
/-- A row stands on a page once, with every detail band. -/
private theorem filter_detailPlaces (d : Design κ) {indices : List Nat} (hnodup : indices.Nodup)
    {index : Nat} (hindex : index ∈ indices) :
    (d.detailPlaces indices).filter (·.1 == index) =
      (d.bandsOfKind .detail).map fun band => (index, band) := by
  induction indices with
  | nil => cases hindex
  | cons i rest ih =>
    obtain ⟨hi, hrest⟩ := List.nodup_cons.mp hnodup
    have hsplit : d.detailPlaces (i :: rest) =
        ((d.bandsOfKind .detail).map fun band => (i, band)) ++ d.detailPlaces rest := rfl
    rw [hsplit, List.filter_append, List.filter_map]
    -- The row itself has the places, and no later one does.
    by_cases heq : i = index
    · subst heq
      simp [Function.comp_def, filter_detailPlaces_of_notMem d hi]
    · -- The places of this row have another number, so it is found further on.
      have hmem : index ∈ rest := (List.mem_cons.mp hindex).resolve_left fun h => heq h.symm
      simp [Function.comp_def, heq, ih hrest hmem]

/-- The height of a row on a page is the one that was computed before the rows were split. -/
theorem IsPage.rowHeight_eq {totalPages : Nat} {page : PrintedPage κ}
    (h : p.IsPage d master rows totalPages page) {place : Record × Nat}
    (hplace : place ∈ page.rows.places rows) (hindex : place.2 ∈ page.rows.indices) :
    page.rowHeight place.2 = Coordinate.sum (p.heightsOfRow d master rows place) := by
  -- The place is that of a row of the data.
  have hrow : rows[place.2]? = some place.1 :=
    List.mem_zipIdx_iff_getElem?.mp (List.mem_of_mem_drop (List.mem_of_mem_take hplace))
  -- The bands of this number are those of the detail kind, one for each.
  have hshows := showsRow_filter_rowIndex place.2 h.showsRow_filter
  have hnodup : page.rows.indices.Nodup := List.nodup_range'
  rw [filter_detailPlaces d hnodup hindex, List.filter_filter,
    List.forall₂_map_left_iff] at hshows
  rw [PrintedPage.rowHeight, heightsOfRow]
  congr 1
  -- Each band carries the height that was computed for it and the row of this number.
  have heights : List.Forall₂ (fun band (b : PrintedBand κ) => b.height =
      (p.bandHeight band (p.layoutContext master rows place.2 place.1) : Counted κ).value)
      (d.bandsOfKind .detail)
      (page.bands.filter fun b => b.rowIndex == some place.2 && b.kind == .detail) := by
    refine hshows.imp fun band b hb => ?_
    obtain ⟨row, hget, hheight, -⟩ := hb.instance_row
    have hsame : row = place.1 := Option.some.inj (hget.symm.trans hrow)
    rw [hheight, hsame]
  have hcomm : ∀ b : PrintedBand κ, (b.kind == .detail && b.rowIndex == some place.2) =
      (b.rowIndex == some place.2 && b.kind == .detail) := fun b => Bool.and_comm _ _
  simp only [hcomm]
  rw [← List.forall₂_eq_eq_eq, List.forall₂_map_left_iff, List.forall₂_map_right_iff]
  exact heights.flip.imp fun _ _ heq => heq

/-- The heights of the rows on a page are those that the rows were split by. -/
theorem IsPage.rowHeights_eq {totalPages : Nat} {page : PrintedPage κ}
    (h : p.IsPage d master rows totalPages page) (hstop : page.rows.stop ≤ rows.length) :
    page.rowHeights = page.rows.slice
      ((p.rowHeights d master rows : Counted (List (List κ))).value.map Coordinate.sum) := by
  have hplaces : page.rows.indices = (page.rows.places rows).map (·.2) :=
    (page.rows.map_places hstop).symm
  rw [value_rowHeights, List.map_map, RowRange.slice, ← List.map_drop, ← List.map_take,
    PrintedPage.rowHeights, hplaces, List.map_map]
  refine List.map_congr_left fun place hplace => ?_
  exact h.rowHeight_eq hplace (hplaces ▸ List.mem_map_of_mem (f := Prod.snd) hplace)

/-- What is printed on a page of a report has the heights that the page was cut out by. -/
theorem rowHeights_of_mem_pages_print {page : PrintedPage κ}
    (h : page ∈ (p.print d master rows).pages) :
    page.rowHeights = page.rows.slice
      ((p.rowHeights d master rows : Counted (List (List κ))).value.map Coordinate.sum) := by
  have hmem : page.rows ∈ p.paginate d master rows := by
    rw [← map_rows_pages_print]
    exact List.mem_map_of_mem (f := (·.rows)) h
  exact (p.isPage_of_mem_pages_print d master rows h).rowHeights_eq
    ((p.isPaging_paginate d master rows).tiles.stop_le page.rows hmem)

variable (p d master rows)

theorem isPaging_map_rows_print :
    IsPaging ((p.print d master rows).pages.map (·.rows)) rows.length := by
  rw [map_rows_pages_print]
  exact p.isPaging_paginate d master rows

theorem length_rowHeights :
    ((p.rowHeights d master rows : Counted (List (List κ))).value.map Coordinate.sum).length =
      rows.length := by
  simp [value_rowHeights]

/-- The rows of a report have, page after page, the heights that they were split by. -/
theorem flatMap_rowHeights_print :
    (p.print d master rows).pages.flatMap (·.rowHeights) =
      (p.rowHeights d master rows : Counted (List (List κ))).value.map Coordinate.sum := by
  set heights := (p.rowHeights d master rows : Counted (List (List κ))).value.map Coordinate.sum
  have hlength : heights.length = rows.length := p.length_rowHeights d master rows
  calc (p.print d master rows).pages.flatMap (·.rowHeights)
    _ = ((p.print d master rows).pages.map (·.rows)).flatMap (·.slice heights) := by
      rw [List.flatMap_map]
      exact List.flatMap_congr fun page hpage => rowHeights_of_mem_pages_print hpage
    _ = heights := by
      rw [(p.isPaging_map_rows_print d master rows).tiles.flatMap_slice heights, List.drop_zero,
        ← hlength, Nat.sub_zero, List.take_length]

variable {p d master rows} {limit : κ}
  (hchoose : Paging.choose p.options d.settings = .byHeight limit)
include hchoose

theorem map_rows_print_byHeight :
    (p.print d master rows).pages.map (·.rows) = (Paging.byHeight limit).split
      ((p.rowHeights d master rows : Counted (List (List κ))).value.map Coordinate.sum) := by
  rw [map_rows_pages_print, paginate, pagesFor, hchoose]

/-- A page of a report has one row at most, or its rows do not exceed the limit. -/
theorem fits_of_mem_pages_print {page : PrintedPage κ}
    (hpage : page ∈ (p.print d master rows).pages) :
    page.rowHeights.length ≤ 1 ∨ ¬ limit < page.bodyHeight := by
  have hmem : page.rows ∈ (p.print d master rows).pages.map (·.rows) :=
    List.mem_map_of_mem (f := (·.rows)) hpage
  rw [map_rows_print_byHeight hchoose] at hmem
  rcases (Paging.split_byHeight limit _).1 page.rows hmem with hone | hlimit
  · left
    rw [PrintedPage.rowHeights, List.length_map, RowRange.indices, List.length_range']
    omega
  · right
    rwa [PrintedPage.bodyHeight, rowHeights_of_mem_pages_print hpage]

/-- With the first row of the next page, a page of a report would exceed the limit. -/
theorem isChain_pages_print :
    (p.print d master rows).pages.IsChain fun page next =>
      ∃ first, next.rowHeights.head? = some first ∧ limit < page.bodyHeight + first := by
  -- The ranges are full, so the pages are.
  have hfull := (Paging.split_byHeight limit
    ((p.rowHeights d master rows : Counted (List (List κ))).value.map Coordinate.sum)).2
  rw [← map_rows_print_byHeight hchoose] at hfull
  refine ((List.isChain_map _).mp hfull).imp_of_mem_imp fun page next hpage hnext h => ?_
  obtain ⟨first, hfirst, hlimit⟩ := h
  refine ⟨first, ?_, ?_⟩
  · have hsome := (List.getElem?_eq_some_iff.mp hfirst).1
    rw [p.length_rowHeights d master rows] at hsome
    -- As there are rows, the next page has one.
    have hlt := (p.isPaging_map_rows_print d master rows).start_lt_stop (Nat.zero_lt_of_lt hsome)
      next.rows (List.mem_map_of_mem (f := (·.rows)) hnext)
    rw [rowHeights_of_mem_pages_print hnext, RowRange.slice, List.head?_take, if_neg (by omega),
      List.head?_drop, hfirst]
  · -- The heights on the page are those that were compared with the limit.
    rwa [PrintedPage.bodyHeight, rowHeights_of_mem_pages_print hpage]

end Printer

/-! ## §3 Heights in doubles -/

theorem Band.zero_le_height (b : Band Float) : 0 ≤ b.height := zero_le_larger _

/-- Whatever a formula gives, the height of the band is not negative. -/
theorem Band.zero_le_heightFrom (b : Band Float) (outcome : Outcome) :
    0 ≤ b.heightFrom outcome := by
  unfold heightFrom
  split
  · exact b.zero_le_height
  · split
    · exact zero_le_larger _
    · exact b.zero_le_height

theorem zero_le_sum {xs : List Float} (h : ∀ x ∈ xs, 0 ≤ x) : 0 ≤ Coordinate.sum xs := by
  suffices hfrom : ∀ start : Float, 0 ≤ start → 0 ≤ xs.foldl (· + ·) start from
    hfrom 0 (by decide +kernel)
  induction xs with
  | nil => exact fun _ hstart => hstart
  | cons x rest ih =>
    obtain ⟨hx, hrest⟩ := List.forall_mem_cons.mp h
    exact fun start hstart => ih hrest _ (zero_le_add hstart hx)

namespace Printer

theorem zero_le_heightsOfRow (p : Printer Float) (d : Design Float) (master : Record)
    (rows : List Record) (place : Record × Nat) :
    ∀ h ∈ p.heightsOfRow d master rows place, 0 ≤ h := by
  refine List.forall_mem_map.mpr fun band _ => ?_
  unfold bandHeight
  split
  · exact band.zero_le_height
  · exact band.zero_le_heightFrom _

theorem zero_le_rowHeights (p : Printer Float) (d : Design Float) (master : Record)
    (rows : List Record) :
    ∀ h ∈ (p.rowHeights d master rows : Counted (List (List Float))).value.map Coordinate.sum,
      0 ≤ h := by
  rw [value_rowHeights, List.map_map]
  exact List.forall_mem_map.mpr fun place _ =>
    zero_le_sum (p.zero_le_heightsOfRow d master rows place)

/-- The rows on a page of a report together are not of negative height. -/
theorem zero_le_bodyHeight {p : Printer Float} {d : Design Float} {master : Record}
    {rows : List Record} {page : PrintedPage Float}
    (hpage : page ∈ (p.print d master rows).pages) : 0 ≤ page.bodyHeight := by
  rw [PrintedPage.bodyHeight, rowHeights_of_mem_pages_print hpage]
  apply zero_le_sum
  intro h hh
  exact p.zero_le_rowHeights d master rows h (List.mem_of_mem_drop (List.mem_of_mem_take hh))

end Printer

/-! ## §4 Reports -/

/-- **Pages are filled with rows as long as they fit.** Where a positive height is asked for and no
positive number of rows, a page of the report has a single row, or its rows, added from left to
right as doubles are added, are no higher than the limit; and on every page but the last, the first
row of the next page would have exceeded it. The heights that the detail bands are printed with are
the ones that the rows were split by. -/
theorem print_fillsPages (s : PrintSession Float) (d : Design Float) (master : Record)
    (rows : List Record) {limit : Float}
    (hrows : ∀ count, s.printer.options.rowsPerPage.or d.settings.rowsPerPage = some count →
      count = 0)
    (hheight : s.printer.options.pageBodyHeight.or d.settings.pageBodyHeight = some limit)
    (hpos : 0 < limit) :
    let pages := (s.print d master rows).1.pages
    (∀ page ∈ pages, page.rowHeights.length = 1 ∨ page.bodyHeight ≤ limit) ∧
    pages.IsChain (fun page next =>
      ∃ first, next.rowHeights.head? = some first ∧ limit < page.bodyHeight + first) ∧
    pages.flatMap (·.rowHeights) =
      (s.printer.rowHeights d master rows : Counted (List (List Float))).value.map
        Coordinate.sum := by
  intro pages
  have hpages : pages = (s.printer.print d master rows).pages :=
    congrArg Report.pages (s.print_eq d master rows)
  -- Without a count of rows, the height decides.
  have hchoose : Paging.choose s.printer.options d.settings = .byHeight limit :=
    Paging.choose_eq_byHeight hrows hheight hpos
  rw [hpages]
  refine ⟨fun page hpage => ?_, Printer.isChain_pages_print hchoose,
    s.printer.flatMap_rowHeights_print d master rows⟩
  -- A page with more than one row fits.
  rcases Printer.fits_of_mem_pages_print hchoose hpage with hone | hlimit
  · rcases Nat.le_one_iff_eq_zero_or_eq_one.mp hone with hnone | hone
    · -- Without rows there is one page, which is empty.
      right
      rw [PrintedPage.bodyHeight, List.length_eq_zero_iff.mp hnone]
      exact float_le_of_lt hpos
    · exact .inl hone
  · -- A sum of heights is not a missing number, so not being more is being at most.
    exact .inr ((not_lt_iff_le hpos (Printer.zero_le_bodyHeight hpage)).mp hlimit)

private def equinox : DateTime := ⟨⟨2015, 3, 20, by decide, by decide⟩, .midnight⟩

/-- Every row has two detail bands. -/
private def captioned : Design Float :=
  .ofBands [.ofHeight "c" "Caption" .detail 0 5.5, .ofHeight "d" "Detail" .detail 5.5 40] ⟨equinox⟩

private def hundredHigh : PrintSession Float :=
  .start ⟨.builtin, ⟨some 0, some 100, none, ""⟩, equinox⟩

/-- Two of three rows fit on the first page. -/
theorem print_fillsPages_hundredHigh :
    let options := hundredHigh.printer.options
    let pages := (hundredHigh.print captioned .empty [.empty, .empty, .empty]).1.pages
    (∀ count, options.rowsPerPage.or captioned.settings.rowsPerPage = some count → count = 0) ∧
    options.pageBodyHeight.or captioned.settings.pageBodyHeight = some 100 ∧ (0 : Float) < 100 ∧
    pages.map (·.rows) = [⟨0, 2⟩, ⟨2, 3⟩] ∧
    (∀ page ∈ pages, page.rowHeights.length = 1 ∨ page.bodyHeight ≤ 100) ∧
    pages.IsChain fun page next =>
      ∃ first, next.rowHeights.head? = some first ∧ 100 < page.bodyHeight + first := by
  intro options pages
  -- The settings of this report have no count of rows.
  have hrows : ∀ count, options.rowsPerPage.or captioned.settings.rowsPerPage = some count →
      count = 0 := by
    intro count hcount
    cases hcount
    rfl
  have hpos : (0 : Float) < 100 := by decide +kernel
  -- That the limit is given is read from the session.
  obtain ⟨hfits, hfull, -⟩ :=
    print_fillsPages hundredHigh captioned .empty [.empty, .empty, .empty] hrows rfl hpos
  exact ⟨hrows, rfl, hpos, by decide +kernel, hfits, hfull⟩

end BandedReport
