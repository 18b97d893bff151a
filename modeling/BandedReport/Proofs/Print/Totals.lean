import BandedReport.Proofs.Canvas.Exact
import BandedReport.Proofs.Decimal.Finite
import BandedReport.Proofs.Formula.Aggregation
import BandedReport.Proofs.Formula.Finiteness
import BandedReport.Proofs.Print.Conservation

/-!
# Page totals and report totals

A total of a page is taken over the rows of the page, a total of the report over all rows. For an
expression that does not see the page both fold the same values of the same rows, and since the
pages share out the rows, the totals of the pages add up to the total of the report: counts as they
are, sums in exact arithmetic.

* `Expr.IgnoresPage` says that an expression reads neither the page nor the position on it;
* `Aggregate.totalIn` is the sum of the numbers among values in any arithmetic;
* `page_totals` says what the totals are and that they add up.
-/

namespace BandedReport.Formula

/-! ## §1 Expressions that do not see the page -/

/-- Contexts that differ in nothing but the page and the position on it. -/
structure Context.SameBeyondPage (ctx₁ ctx₂ : Context) : Prop where
  master : ctx₁.master = ctx₂.master
  detailRow : ctx₁.detailRow = ctx₂.detailRow
  allRows : ctx₁.allRows = ctx₂.allRows
  totalPages : ctx₁.totalPages = ctx₂.totalPages
  now : ctx₁.now = ctx₂.now

theorem Context.SameBeyondPage.forRow {ctx₁ ctx₂ : Context} (h : ctx₁.SameBeyondPage ctx₂)
    (row : Record) : (ctx₁.forRow row).SameBeyondPage (ctx₂.forRow row) :=
  { h with detailRow := rfl }

/-- The system variables that tell the page or the position on it. -/
def pageVariables : List String := ["pageNumber", "rowIndex", "rowNumber", "pageRowCount"]

namespace Expr

/-- The expression reads no variable of the page, and calls no aggregate over its rows. -/
def IgnoresPage (e : Expr) : Prop :=
  (∀ name ∈ e.references, name ∉ pageVariables) ∧
    ∀ c ∈ e.calls, Dependencies.aggregateScope? .builtin c.1 ≠ some .page

instance : DecidablePred IgnoresPage := fun _ => inferInstanceAs (Decidable (_ ∧ _))

end Expr

theorem systemValue?_sameBeyondPage {name : String} (hname : name ∉ pageVariables)
    {ctx₁ ctx₂ : Context} (h : ctx₁.SameBeyondPage ctx₂) :
    systemValue? name ctx₁ = systemValue? name ctx₂ := by
  unfold systemValue?
  split
  case h_1 | h_2 | h_3 => rw [h.now]
  case h_5 => rw [h.totalPages]
  case h_8 => rw [h.allRows]
  case h_10 => rfl
  all_goals exact absurd hname (by decide)

theorem resolve_sameBeyondPage {name : String} (hname : name ∉ pageVariables)
    {ctx₁ ctx₂ : Context} (h : ctx₁.SameBeyondPage ctx₂) :
    resolve name ctx₁ = resolve name ctx₂ := by
  rw [resolve, resolve, systemValue?_sameBeyondPage hname h, Context.field?, Context.field?,
    h.detailRow, h.master]

/-- In contexts that differ in the page alone, an expression that does not see it is the same. -/
theorem Expr.IgnoresPage.evaluate_eq {e : Expr} (he : e.IgnoresPage) {ctx₁ ctx₂ : Context}
    (h : ctx₁.SameBeyondPage ctx₂) : e.evaluate .builtin ctx₁ = e.evaluate .builtin ctx₂ := by
  refine evaluate_eq_of_related (R := Context.SameBeyondPage) (fun _ _ => builtin_readsClockOnly)
    (fun h => h.forRow) (fun h => h.now) (fun name hname _ _ h => ?_)
    (fun c hc scope hscope _ _ h => ?_) h
  · exact resolve_sameBeyondPage (he.1 name hname) h
  · -- The rows of the report are the same; an aggregate over those of the page is excluded.
    cases scope with
    | all => exact h.allRows
    | page => exact absurd hscope (he.2 c hc)

theorem Expr.IgnoresPage.onRow_eq {e : Expr} (he : e.IgnoresPage) {ctx₁ ctx₂ : Context}
    (h : ctx₁.SameBeyondPage ctx₂) (row : Record) :
    (e.toArgument .builtin).onRow ctx₁ row = (e.toArgument .builtin).onRow ctx₂ row :=
  Argument.onRow_congr (he.evaluate_eq (h.forRow row))

/-! ## §2 Aggregates -/

namespace Aggregate

/-- The sum of the numbers among values, in any arithmetic. -/
def totalIn (κ : Type) [Coordinate κ] (values : List Scalar) : κ :=
  Coordinate.sum ((numbers values).map Coordinate.ofFloat)

/-- In doubles this is the sum that the program computes. -/
theorem sum_eq_totalIn (values : List Scalar) : sum values = .number (totalIn Float values) := by
  have hzero : (0.0 : Float) = Float.ofNat 0 := by decide +kernel
  have hnumbers : (numbers values).map Coordinate.ofFloat = numbers values := List.map_id _
  rw [sum, sumOf, totalIn, hnumbers, hzero]
  rfl

/-- Without rounding, totals of parts add up to the total of the whole. -/
theorem sum_totalIn (parts : List (List Scalar)) :
    (parts.map (totalIn ℚ)).sum = totalIn ℚ parts.flatten := by
  induction parts with
  | nil => simp [totalIn, numbers]
  | cons values rest ih =>
    have hnumbers : numbers (values :: rest).flatten = numbers values ++ numbers rest.flatten :=
      List.filterMap_append
    rw [List.map_cons, List.sum_cons, ih, totalIn, totalIn, totalIn, hnumbers]
    simp

end Aggregate

/-- Where the argument has a value on every row, the aggregate reduces these values. -/
theorem evaluate_aggregate_of_values {name description : String} {scope : RowScope}
    {reduce : List Scalar → Scalar}
    (hget : Registry.builtin.get? name = some (Aggregate.define name scope reduce description))
    {e : Expr} {ctx : Context} {value : Record → Scalar}
    (h : ∀ row ∈ ctx.rowsOf scope, (e.toArgument .builtin).onRow ctx row = .ok (value row)) :
    (Expr.call name [e]).evaluate .builtin ctx =
      finiteOutcome (reduce ((ctx.rowsOf scope).map value)) := by
  rw [evaluate_aggregate hget rfl rfl, mapM_eq_ok h]
  rfl

/-- Where a count is defined, its argument has a value on every row. -/
theorem exists_values_of_count {e : Expr} {ctx : Context} {v : Scalar}
    (h : (Expr.call "COUNT" [e]).evaluate .builtin ctx = .ok v) :
    ∃ value : Record → Scalar,
      ∀ row ∈ ctx.allRows, (e.toArgument .builtin).onRow ctx row = .ok (value row) := by
  rw [evaluate_aggregate rfl rfl rfl, bind_eq_ok_iff] at h
  obtain ⟨values, hvalues, -⟩ := h
  -- Rows that are not counted may have any value.
  have hsome : ∀ row, ∃ value, row ∈ ctx.allRows →
      (e.toArgument .builtin).onRow ctx row = .ok value := by
    intro row
    by_cases hrow : row ∈ ctx.allRows
    · obtain ⟨value, hvalue⟩ := exists_ok_of_mapM hvalues row hrow
      exact ⟨value, fun _ => hvalue⟩
    · exact ⟨.null, fun h => absurd h hrow⟩
  choose value hvalue using hsome
  exact ⟨value, hvalue⟩

end BandedReport.Formula

namespace BandedReport

open Formula

variable {κ : Type} [Coordinate κ]

/-! ## §3 The rows of the pages -/

/-- The context of a page of a printed report. -/
def PrintSession.contextOf (s : PrintSession κ) (d : Design κ) (master : Record)
    (rows : List Record) (page : PrintedPage κ) : Context :=
  s.printer.pageContext master rows page.rows page.number (s.print d master rows).1.pages.length

theorem PrintSession.sameBeyondPage_contextOf (s : PrintSession κ) (d : Design κ)
    (master : Record) (rows : List Record) (page page' : PrintedPage κ) :
    (s.contextOf d master rows page).SameBeyondPage (s.contextOf d master rows page') :=
  ⟨rfl, rfl, rfl, rfl, rfl⟩

/-- The rows of the pages, page after page, are all rows. -/
theorem PrintSession.flatten_pageRows (s : PrintSession κ) (d : Design κ) (master : Record)
    (rows : List Record) :
    ((s.print d master rows).1.pages.map fun page =>
      (s.contextOf d master rows page).pageRows).flatten = rows := by
  have hpages := s.printer.map_rows_pages_print d master rows
  have htiles := (s.printer.isPaging_paginate d master rows).tiles.flatMap_slice rows
  rw [← hpages, ← s.print_eq, List.flatMap_map, List.drop_zero, Nat.sub_zero,
    List.take_length] at htiles
  exact htiles

/-! ## §4 Totals -/

/-- A count that is a number for all rows is one for some of them. -/
theorem finiteOutcome_ofNat_of_le {n m : Nat} (h : n ≤ m) {v : Scalar}
    (hm : finiteOutcome (.ofNat m) = .ok v) :
    finiteOutcome (.ofNat n) = .ok (.ofNat n) := by
  have hfinite : (Scalar.ofNat m).isFinite = true := by
    by_contra hinfinite
    rw [finiteOutcome_eq, if_neg hinfinite] at hm
    cases hm
  have hn : (Scalar.ofNat n).isFinite = true := isFinite_ofNat_of_le h hfinite
  rw [finiteOutcome_eq, if_pos hn]

/-- **Page totals add up to report totals.** For an expression that does not see the page, and whose
count over all rows is defined, every row has one value, whichever page asks for it. On every page
the count and the sum over all rows are those of the values of all rows, the count and the sum over
the rows of the page are those of the values of its rows; the counts of the pages add up to the
count of the report, and without rounding the sums of the pages add up to its sum. -/
theorem page_totals (s : PrintSession κ) (d : Design κ) (master : Record) (rows : List Record)
    {e : Expr} (he : e.IgnoresPage)
    (hcount : ∃ page ∈ (s.print d master rows).1.pages, ∃ v,
      (Expr.call "COUNT" [e]).evaluate .builtin (s.contextOf d master rows page) = .ok v) :
    let pages := (s.print d master rows).1.pages
    let pageRows (page : PrintedPage κ) := (s.contextOf d master rows page).pageRows
    let total (function : String) (page : PrintedPage κ) :=
      (Expr.call function [e]).evaluate .builtin (s.contextOf d master rows page)
    ∃ value : Record → Scalar,
      let present (rows : List Record) := (rows.map value).countP (!·.isBlank)
      let sum (κ : Type) [Coordinate κ] (rows : List Record) := Aggregate.totalIn κ (rows.map value)
      (∀ page ∈ pages,
        (∀ row ∈ rows, (e.toArgument .builtin).onRow (s.contextOf d master rows page) row =
          .ok (value row)) ∧
        total "COUNT" page = .ok (.ofNat (present rows)) ∧
        total "PAGECOUNT" page = .ok (.ofNat (present (pageRows page))) ∧
        total "SUM" page = finiteOutcome (.number (sum Float rows)) ∧
        total "PAGESUM" page = finiteOutcome (.number (sum Float (pageRows page)))) ∧
      (pages.map fun page => present (pageRows page)).sum = present rows ∧
      (pages.map fun page => sum ℚ (pageRows page)).sum = sum ℚ rows := by
  intro pages pageRows total
  obtain ⟨counted, -, v, hv⟩ := hcount
  obtain ⟨value, hvalue⟩ := exists_values_of_count hv
  -- The row has the same value on whatever page it is asked for.
  have hpage : ∀ page, ∀ row ∈ rows,
      (e.toArgument .builtin).onRow (s.contextOf d master rows page) row = .ok (value row) := by
    intro page row hrow
    rw [he.onRow_eq (s.sameBeyondPage_contextOf d master rows page counted)]
    exact hvalue row hrow
  -- The rows of all pages, one page after the other, are all rows.
  have hparts : (pages.map pageRows).flatten = rows := s.flatten_pageRows d master rows
  have hsubset : ∀ page ∈ pages, ∀ row ∈ pageRows page, row ∈ rows := by
    intro page hpage row hrow
    rw [← hparts]
    exact List.mem_flatten.mpr ⟨_, List.mem_map.mpr ⟨page, hpage, rfl⟩, hrow⟩
  -- So what is counted page by page is counted once.
  have hcounts : (pages.map fun page => ((pageRows page).map value).countP (!·.isBlank)).sum =
      (rows.map value).countP (!·.isBlank) := by
    rw [← hparts, List.map_flatten, List.countP_flatten, List.map_map, List.map_map]
    rfl
  -- The same for what is added.
  have hsums : (pages.map fun page => Aggregate.totalIn ℚ ((pageRows page).map value)).sum =
      Aggregate.totalIn ℚ (rows.map value) := by
    rw [← hparts, List.map_flatten, ← Aggregate.sum_totalIn, List.map_map, List.map_map]
    rfl
  -- Each page counts the values of all rows.
  have hcountAll : ∀ page, total "COUNT" page =
      finiteOutcome (Aggregate.count (rows.map value)) := by
    intro page
    have hall : ∀ row ∈ (s.contextOf d master rows page).rowsOf .all, _ := hpage page
    exact evaluate_aggregate_of_values rfl hall
  have hdefined : finiteOutcome (Aggregate.count (rows.map value)) = .ok v :=
    (hcountAll counted).symm.trans hv
  refine ⟨value, fun page hmem => ?_, hcounts, hsums⟩
  have hall : ∀ row ∈ (s.contextOf d master rows page).rowsOf .all, _ := hpage page
  have honPage : ∀ row ∈ (s.contextOf d master rows page).rowsOf .page, _ :=
    fun row hrow => hpage page row (hsubset page hmem row hrow)
  -- A page has no more than all rows have, so its count is a number too.
  have hle : ((pageRows page).map value).countP (!·.isBlank) ≤
      (rows.map value).countP (!·.isBlank) := by
    rw [← hcounts]
    exact List.le_sum_of_mem (List.mem_map.mpr ⟨page, hmem, rfl⟩)
  -- The four functions on one page: all rows and the rows of the page, counted and added.
  refine ⟨hpage page, ?_, ?_, ?_, ?_⟩
  · exact (hcountAll page).trans (finiteOutcome_ofNat_of_le (Nat.le_refl _) hdefined)
  · exact (evaluate_aggregate_of_values rfl honPage).trans
      (finiteOutcome_ofNat_of_le hle hdefined)
  · rw [← Aggregate.sum_eq_totalIn]
    exact evaluate_aggregate_of_values rfl hall
  · rw [← Aggregate.sum_eq_totalIn]
    exact evaluate_aggregate_of_values rfl honPage

private def midyear : DateTime := ⟨⟨2017, 7, 1, by decide, by decide⟩, .midnight⟩

private def detailOnly : Design Float := .ofBands [.ofHeight "d" "Detail" .detail 0 20] ⟨midyear⟩

private def pairsOfRows : PrintSession Float :=
  .start ⟨.builtin, { PrintOptions.empty with rowsPerPage := some 2 }, midyear⟩

/-- Three rows, of which the second has no price. -/
private def pricedRows : List Record :=
  [.ofList [("price", .number 3.0)], .ofList [("name", .text "gift")],
    .ofList [("price", .number 4.5)]]

/-- On two pages there are two prices, however they are counted. -/
theorem page_totals_pricedRows :
    let price : Expr := .reference "price"
    let pages := (pairsOfRows.print detailOnly .empty pricedRows).1.pages
    let total (function : String) (page : PrintedPage Float) :=
      (Expr.call function [price]).evaluate .builtin
        (pairsOfRows.contextOf detailOnly .empty pricedRows page)
    pages.length = 2 ∧ price.IgnoresPage ∧
    (∃ page ∈ pages, ∃ v, total "COUNT" page = .ok v) ∧
    (∀ page ∈ pages, total "COUNT" page = .ok (.ofNat 2)) ∧
    ∃ present : PrintedPage Float → Nat,
      (∀ page ∈ pages, total "PAGECOUNT" page = .ok (.ofNat (present page))) ∧
      (pages.map present).sum = 2 := by
  intro price pages total
  have hpages : pages.length = 2 := by decide +kernel
  have hprice : price.IgnoresPage := by decide +kernel
  have hfirst : pages[0] ∈ pages := List.getElem_mem _
  have hcount : total "COUNT" pages[0] = .ok (.ofNat 2) := by rfl
  obtain ⟨value, htotals, hcounts, -⟩ := page_totals pairsOfRows detailOnly .empty pricedRows
    hprice ⟨_, hfirst, _, hcount⟩
  -- The second row has no price.
  have hvalues : pricedRows.map value = [.number 3.0, .null, .number 4.5] := by
    have hrows : ∀ row ∈ pricedRows, (price.toArgument .builtin).onRow _ row = .ok (value row) :=
      (htotals _ hfirst).1
    simp only [pricedRows, List.forall_mem_cons] at hrows
    obtain ⟨h₁, h₂, h₃, -⟩ := hrows
    simp only [pricedRows, List.map_cons, List.map_nil, ← Except.ok.inj h₁, ← Except.ok.inj h₂,
      ← Except.ok.inj h₃]
  -- So there are two prices to be counted.
  have hpresent : (pricedRows.map value).countP (!·.isBlank) = 2 := by
    rw [hvalues]
    rfl
  refine ⟨hpages, hprice, ⟨_, hfirst, _, hcount⟩, fun page hpage => ?_, _,
    fun page hpage => (htotals page hpage).2.2.1, hcounts.trans hpresent⟩
  rw [← hpresent]
  exact (htotals page hpage).2.1

end BandedReport
