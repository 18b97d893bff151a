import BandedReport.Proofs.Formula.Writing
import BandedReport.Proofs.Print.Accounting

/-!
# Failures that are counted

The errors of a report are its controls whose formula failed. A band has formulas of its own, for
its height and for its background: when they fail, the band keeps its designed height or has no
background, and nothing is counted. So the errors of a report are all failures only when no formula
of a band fails.

* `BandInstance` is a band with the contexts in which its formulas are evaluated;
* `Printer.instancesOn` lists the instances that are printed on a page;
* `Printer.Prints` says that a printed band comes of an instance.
-/

namespace BandedReport

open Formula (Context Expr Outcome Written literalValue)

variable {κ : Type}

/-! ## §1 Formulas of bands -/

/-- Is the outcome an error, other than that a field is missing? -/
def Formula.Outcome.isFailure : Outcome → Bool
  | .ok _ | .error (.missingField _) => false
  | .error _ => true

/-- A band that is printed, with the context in which its height is computed and the one in which
it is printed. They differ for detail bands, whose heights are computed before there are pages. -/
structure BandInstance (κ : Type) where
  band : Band κ
  layout : Context
  context : Context

namespace BandInstance

/-- The formulas of the band itself, with the contexts in which they are evaluated. -/
def evaluations (i : BandInstance κ) : List (String × Context) :=
  (i.band.rowHeightFormula.toList.map fun formula => (formula, i.layout)) ++
    i.band.backgroundColorFormula.toList.map fun formula => (formula, i.context)

/-- The formulas of the controls that the band shows. -/
def calculatedCount (i : BandInstance κ) : Nat :=
  i.band.objects.countP fun c => c.printVisible && c.isCalculated

theorem formulaCount_band (i : BandInstance κ) :
    i.band.formulaCount = i.evaluations.length + i.calculatedCount := by
  unfold Band.formulaCount evaluations calculatedCount
  cases i.band.rowHeightFormula <;> cases i.band.backgroundColorFormula <;> simp

end BandInstance

/-! ## §2 The instances on a page -/

namespace Printer

variable (p : Printer κ)

/-- Does a formula fail in a context? -/
def fails (evaluation : String × Context) : Bool :=
  (p.evaluate evaluation.1 evaluation.2 : Counted Outcome).value.isFailure

/-- The detail bands of a row with a number, on a page. -/
def instancesOfRow (d : Design κ) (master : Record) (rows : List Record) (pageCtx : Context)
    (place : Record × Nat) : List (BandInstance κ) :=
  (d.bandsOfKind .detail).map fun band =>
    ⟨band, p.layoutContext master rows place.2 place.1,
      { pageCtx.forRow place.1 with rowIndex := place.2 }⟩

/-- The bands of a page of a number of pages, with their contexts. -/
def instancesOn (d : Design κ) (master : Record) (rows : List Record) (totalPages : Nat)
    (page : PrintedPage κ) : List (BandInstance κ) :=
  let ctx := p.pageContext master rows page.rows page.number totalPages
  let onPage (bands : List (Band κ)) : List (BandInstance κ) :=
    bands.map fun band => ⟨band, ctx, ctx⟩
  onPage (d.bandsOfKind .header) ++
    (page.rows.places rows).flatMap (p.instancesOfRow d master rows ctx) ++
    onPage (if page.number = totalPages then d.bandsOfKind .summary
      else (d.bandsOfKind .summary).filter (·.summaryMode = .everyPage)) ++
    onPage (d.bandsOfKind .footer)

variable (d : Design κ) (master : Record) (rows : List Record)

theorem map_band_instancesOn (totalPages : Nat) {page : PrintedPage κ}
    (hrows : page.rows.stop ≤ rows.length) :
    (p.instancesOn d master rows totalPages page).map (·.band) = d.bandsOn totalPages page := by
  have hdetails : ((page.rows.places rows).flatMap (p.instancesOfRow d master rows
      (p.pageContext master rows page.rows page.number totalPages))).map (·.band) =
        page.rows.indices.flatMap fun _ => d.bandsOfKind .detail := by
    rw [← page.rows.map_places hrows, List.map_flatMap, List.flatMap_map]
    simp only [instancesOfRow, List.map_map, Function.comp_def, List.map_id']
  simp only [instancesOn, Design.bandsOn, List.map_append, List.map_map, Function.comp_def,
    List.map_id', hdetails]

variable [Coordinate κ]

/-- The printed band comes of an instance: it is the band in the context in which it is printed, and
has the height that the band has in the other context. -/
structure Prints (i : BandInstance κ) (printed : PrintedBand κ) : Prop where
  isInstance : p.IsInstance i.context i.band printed
  height : printed.height = (p.bandHeight i.band i.layout : Counted κ).value

theorem prints_printBands (ctx : Context) (bands : List (Band κ)) :
    List.Forall₂ p.Prints (bands.map fun band => ⟨band, ctx, ctx⟩)
      (bands.map fun band => (p.printBand ctx band : Counted (PrintedBand κ)).value) := by
  rw [List.forall₂_map_left_iff, List.forall₂_map_right_iff, List.forall₂_same]
  exact fun band _ => ⟨p.isInstance_printBandOfHeight ctx none _ band, rfl⟩

theorem prints_printRow (pageCtx : Context) (place : Record × Nat) :
    List.Forall₂ p.Prints (p.instancesOfRow d master rows pageCtx place)
      (p.printRow d pageCtx place.2 place.1 (p.heightsOfRow d master rows place) :
        Counted (List (PrintedBand κ))).value := by
  rw [instancesOfRow, printRow, heightsOfRow, ← List.map_prod_left_eq_zip, Counted.value_mapM,
    List.map_map, List.forall₂_map_left_iff, List.forall₂_map_right_iff, List.forall₂_same]
  exact fun band _ => ⟨p.isInstance_printBandOfHeight _ _ _ _, rfl⟩

theorem prints_pageOf (totalPages : Nat) (range : RowRange) (pageNumber : Nat) :
    let page := p.pageOf d master rows totalPages range pageNumber
    List.Forall₂ p.Prints (p.instancesOn d master rows totalPages page) page.bands := by
  intro page
  let ctx := p.pageContext master rows range pageNumber totalPages
  -- The rows of the page, each with its bands.
  have hdetails : List.Forall₂ p.Prints
      ((range.places rows).flatMap (p.instancesOfRow d master rows ctx))
      (p.detailsOf d master rows ctx range) := by
    rw [detailsOf_eq_flatMap]
    exact forall₂_flatMap fun place _ => p.prints_printRow d master rows ctx place
  -- Both lists have four parts, and these correspond one by one.
  rw [show page.bands = _ from p.bands_pageOf d master rows totalPages range pageNumber,
    filter_isPrintedOn]
  exact List.rel_append (List.rel_append (List.rel_append (p.prints_printBands ctx _) hdetails)
    (p.prints_printBands ctx _)) (p.prints_printBands ctx _)

/-! ## §3 The errors of a report -/

variable {p d master rows} in
theorem prints_of_mem_pages_print {page : PrintedPage κ}
    (h : page ∈ (p.print d master rows).pages) :
    let totalPages := (p.print d master rows).pages.length
    List.Forall₂ p.Prints (p.instancesOn d master rows totalPages page) page.bands ∧
      page.rows.stop ≤ rows.length := by
  intro totalPages
  -- A page of the report has one of the ranges the rows were split into.
  have hrows : page.rows ∈ p.paginate d master rows := by
    rw [← p.map_rows_pages_print d master rows]
    exact List.mem_map_of_mem h
  have hlength : totalPages = (p.paginate d master rows).length := by
    rw [← p.map_rows_pages_print d master rows, List.length_map]
  refine ⟨?_, (p.isPaging_paginate d master rows).tiles.stop_le _ hrows⟩
  rw [hlength]
  rw [pages_print] at h
  obtain ⟨place, -, rfl⟩ := List.mem_map.mp h
  exact p.prints_pageOf d master rows _ place.1 (place.2 + 1)

/-- A report counts as errors the controls that failed, and nothing else. -/
theorem errors_print :
    (p.print d master rows).tally.errors =
      (((p.print d master rows).pages.flatMap (·.bands)).flatMap (·.objects)).countP
        (·.hasFailed) := by
  rw [show (p.print d master rows).tally = _ from p.tally_print d master rows]

/-- The formulas that a report counts are those of its bands and of the controls they show. -/
theorem formulas_print :
    let report := p.print d master rows
    let instances := report.pages.flatMap (p.instancesOn d master rows report.pages.length)
    report.tally.formulas = (instances.flatMap (·.evaluations)).length +
      (instances.map (·.calculatedCount)).sum := by
  intro report instances
  -- The tally speaks of the bands that belong on the pages; they are those of the instances.
  have hbands : report.pages.flatMap (d.bandsOn report.pages.length) =
      instances.map (·.band) := by
    rw [List.map_flatMap]
    exact (List.flatMap_congr fun page hpage => p.map_band_instancesOn d master rows _
      (prints_of_mem_pages_print hpage).2).symm
  rw [show report.tally = _ from p.tally_print d master rows]
  simp only [report, hbands, List.map_map, List.length_flatMap, ← List.sum_map_add,
    Function.comp_def, BandInstance.formulaCount_band]

end Printer

variable [Coordinate κ]

/-- **Only failures of controls are counted.** The bands of a report come of the instances of its
pages, one by one, and the formulas that it counts are those of these bands and of the controls they
show. Its errors are the controls whose formula failed. So they are all failures, those of the
formulas of bands included, just when no formula of a band fails. -/
theorem print_failures (s : PrintSession κ) (d : Design κ) (master : Record)
    (rows : List Record) :
    let report := (s.print d master rows).1
    let printed := report.pages.flatMap (·.bands)
    let objects := printed.flatMap (·.objects)
    let instances := report.pages.flatMap
      (s.printer.instancesOn d master rows report.pages.length)
    let evaluations := instances.flatMap (·.evaluations)
    List.Forall₂ s.printer.Prints instances printed ∧
    report.tally.formulas = evaluations.length + (instances.map (·.calculatedCount)).sum ∧
    report.tally.errors = objects.countP (·.hasFailed) ∧
    (report.tally.errors = objects.countP (·.hasFailed) + evaluations.countP s.printer.fails ↔
      ∀ evaluation ∈ evaluations, s.printer.fails evaluation = false) := by
  intro report printed objects instances evaluations
  -- A session prints as its printer does, and so do all the counters.
  have hreport : report = s.printer.print d master rows := s.print_eq d master rows
  have hprints : List.Forall₂ s.printer.Prints instances printed := by
    refine forall₂_flatMap fun page hpage => ?_
    rw [hreport] at hpage ⊢
    exact (Printer.prints_of_mem_pages_print hpage).1
  have herrors : report.tally.errors = objects.countP (·.hasFailed) := by
    have h := s.printer.errors_print d master rows
    rwa [← hreport] at h
  have hformulas : report.tally.formulas =
      evaluations.length + (instances.map (·.calculatedCount)).sum := by
    have h := s.printer.formulas_print d master rows
    rwa [← hreport] at h
  refine ⟨hprints, hformulas, herrors, ?_⟩
  -- The two counts agree exactly if there is no failure to add.
  rw [herrors, Nat.left_eq_add, List.countP_eq_zero]
  simp only [Bool.not_eq_true]

private def firstOfJuly : DateTime := ⟨⟨2020, 7, 1, by decide, by decide⟩, .midnight⟩

/-- A header band without controls, whose height is a division by zero. -/
private def brokenHeader : Band Float :=
  { Band.ofHeight "h" "Header" .header 0 40 with rowHeightFormula := some "1 / 0" }

private def brokenSheet : Design Float := .ofBands [brokenHeader] ⟨firstOfJuly⟩

private theorem parse_reciprocal :
    Expr.parse "1 / 0" = .ok (.binary .divide (.number 1.0) (.number 0.0)) := by
  have hdigit : ∀ c : Char, c.isDigit →
      Written [c] (.factor (.number (literalValue [c]))) :=
    fun c hc => Written.number (.whole ⟨by simp, by simpa using hc⟩)
  have hone : literalValue ['1'] = 1.0 := by decide +kernel
  have hzero : literalValue ['0'] = 0.0 := by decide +kernel
  have hleft := hdigit '1' rfl
  have hright := hdigit '0' rfl
  rw [hone] at hleft
  rw [hzero] at hright
  exact (Written.product (s := .slash) rfl hleft.term hright).expression.parse_eq

omit [Coordinate κ] in
/-- Whatever a division by zero is evaluated in, it fails. -/
private theorem fails_reciprocal (p : Printer κ) (ctx : Context) :
    p.fails ("1 / 0", ctx) = true := by
  have hzero : ((0.0 : Float) == 0.0) = true := by decide +kernel
  have hvalue : (Expr.binary .divide (.number 1.0) (.number 0.0)).evaluate p.registry ctx =
      .error .divideByZero := by
    show Formula.Operator.divide.onNumbers 1.0 0.0 = _
    simp only [Formula.Operator.onNumbers, hzero, if_true]
  simp only [Printer.fails, Printer.evaluate, Counted.value_bind, Printing.readFormula,
    parse_reciprocal, Counted.value_pure, hvalue]
  rfl

/-- The height of the band fails, on the only page, and the report counts no error. -/
theorem print_failures_of_height :
    let session : PrintSession Float := .start ⟨.builtin, .empty, firstOfJuly⟩
    let report := (session.print brokenSheet .empty []).1
    let objects := (report.pages.flatMap (·.bands)).flatMap (·.objects)
    let instances := report.pages.flatMap
      (session.printer.instancesOn brokenSheet .empty [] report.pages.length)
    report.tally.errors = 0 ∧ objects.countP (·.hasFailed) = 0 ∧
      (instances.flatMap (·.evaluations)).countP session.printer.fails = 1 := by
  intro session report objects instances
  let p := session.printer
  let ctx := p.pageContext .empty [] ⟨0, 0⟩ 1 1
  have hreport : report = p.print brokenSheet .empty [] := session.print_eq _ _ _
  -- Without rows the report is one page.
  have hpages : report.pages = [p.pageOf brokenSheet .empty [] 1 ⟨0, 0⟩ 1] := by
    rw [hreport]
    exact p.pages_print brokenSheet .empty []
  -- The only formula that is evaluated there is the one of the height.
  have hevaluations : instances.flatMap (·.evaluations) = [("1 / 0", ctx)] := by
    simp only [instances, hpages]
    rfl
  have hobjects : objects = [] := by
    -- The only instance on the page is that of the header, which has no controls to sort.
    obtain ⟨printed, rest, hprinted, hrest, hbands⟩ := List.forall₂_cons_left_iff.mp
      (p.prints_pageOf brokenSheet .empty [] 1 ⟨0, 0⟩ 1)
    cases hrest
    have hnone : printed.objects = [] := by
      rw [hprinted.isInstance.objects, Band.printOrder]
      simp only [brokenHeader, Band.ofHeight, List.mergeSort_nil, List.filter_nil, List.map_nil]
    simp only [objects, hpages, hbands, List.flatMap_cons, List.flatMap_nil, List.append_nil, hnone]
  -- The failure of a height is not among the errors.
  have herrors : report.tally.errors = objects.countP (·.hasFailed) := by
    have h := p.errors_print brokenSheet .empty []
    rwa [← hreport] at h
  rw [herrors, hobjects, hevaluations, List.countP_singleton, fails_reciprocal]
  exact ⟨rfl, rfl, rfl⟩

end BandedReport
