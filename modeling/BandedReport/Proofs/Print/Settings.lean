import BandedReport.Print.Session
import BandedReport.Proofs.Decimal.Extent
import BandedReport.Proofs.Print.HeightPages

/-!
# Options before settings

The pages of a report depend on the settings of its design only through the limits of a page: a
number of rows and a height. The options of a print pass may give both limits too, and then come
before the settings, limit by limit. A number of rows comes before a height, wherever it is from, so
that settings with a number of rows win against options with nothing but a height.

* `Paging.choose_of_rowsPerPage` and `Paging.choose_of_pageBodyHeight` say what is chosen when the
  options give a limit that counts;
* `PrintSession.paginate_withSettings` says that the settings act through that choice alone;
* `head?_split_level` tells any two choices apart by rows without height;
* `paginate_ignoresSettings_iff` puts everything together: when the settings of a design do not show
  in its pages, and what does not show when they do.
-/

namespace BandedReport

variable {κ : Type} [Coordinate κ]

/-! ## §1 The limits of a page -/

/-- The options give a limit that counts: a positive number of rows or a positive height. -/
def PrintOptions.Limits (o : PrintOptions κ) : Prop :=
  (∃ count, o.rowsPerPage = some count ∧ 0 < count) ∨
    ∃ limit, o.pageBodyHeight = some limit ∧ Coordinate.ofNat 0 < limit

/-- Options that give a limit and no number of rows give a height. -/
theorem PrintOptions.Limits.pageBodyHeight {o : PrintOptions κ} (h : o.Limits)
    (hrows : ∀ count, o.rowsPerPage = some count → count = 0) :
    ∃ limit, o.pageBodyHeight = some limit ∧ Coordinate.ofNat 0 < limit := by
  rcases h with ⟨count, hcount, hpos⟩ | hheight
  · exact absurd (hrows count hcount) (Nat.ne_of_gt hpos)
  · exact hheight

/-- The number of rows on a page that settings ask for; zero asks for nothing. -/
def DesignSettings.rowCount? (s : DesignSettings κ) : Option Nat :=
  s.rowsPerPage.filter fun count => 0 < count

omit [Coordinate κ] in
theorem DesignSettings.rowCount?_eq_some_iff {s : DesignSettings κ} {count : Nat} :
    s.rowCount? = some count ↔ s.rowsPerPage = some count ∧ 0 < count := by
  simp [rowCount?, Option.filter_eq_some_iff]

omit [Coordinate κ] in
theorem DesignSettings.eq_zero_of_rowCount? {s : DesignSettings κ} (h : s.rowCount? = none)
    {count : Nat} (hcount : s.rowsPerPage = some count) : count = 0 := by
  rw [rowCount?, Option.filter_eq_none_iff] at h
  simpa using h count hcount

namespace Paging

/-- Options with a number of rows decide alone: if it is positive, by it, and if it is zero, by
their height, because zero takes the number of the settings away too. -/
theorem choose_of_rowsPerPage {o : PrintOptions κ} (hlimits : o.Limits)
    (hrows : o.rowsPerPage.isSome = true) (first second : DesignSettings κ) :
    choose o first = choose o second := by
  obtain ⟨count, hcount⟩ := Option.isSome_iff_exists.mp hrows
  have hor : ∀ s : DesignSettings κ, o.rowsPerPage.or s.rowsPerPage = some count := by
    intro s
    rw [hcount, Option.some_or]
  -- A count of zero leaves the choice to the height of the options, which is then given.
  rcases Nat.eq_zero_or_pos count with rfl | hpos
  · obtain ⟨limit, hlimit, hpositive⟩ := hlimits.pageBodyHeight fun n hn =>
      Option.some.inj (hn.symm.trans hcount)
    have hchoose : ∀ s : DesignSettings κ, choose o s = byHeight limit := by
      intro s
      refine choose_eq_byHeight (fun n hn => ?_) (by rw [hlimit, Option.some_or]) hpositive
      exact Option.some.inj (hn.symm.trans (hor s))
    rw [hchoose first, hchoose second]
  · -- Any other count decides by itself.
    have hchoose : ∀ s : DesignSettings κ, choose o s = byRows count :=
      fun s => choose_eq_byRows_iff.mpr ⟨hor s, hpos⟩
    rw [hchoose first, hchoose second]

/-- Options with a height and no number of rows decide only for settings that have no number of
rows either. -/
theorem choose_of_pageBodyHeight {o : PrintOptions κ} {limit : κ} (hrows : o.rowsPerPage = none)
    (hheight : o.pageBodyHeight = some limit) (hpos : Coordinate.ofNat 0 < limit)
    (s : DesignSettings κ) :
    choose o s = (s.rowCount?.map byRows).getD (byHeight limit) := by
  cases hcount : s.rowCount? with
  | some count =>
    obtain ⟨hsome, hcountPos⟩ := DesignSettings.rowCount?_eq_some_iff.mp hcount
    exact choose_eq_byRows_iff.mpr ⟨by rw [hrows, Option.none_or, hsome], hcountPos⟩
  | none =>
    refine choose_eq_byHeight (fun n hn => ?_) (by rw [hheight, Option.some_or]) hpos
    rw [hrows, Option.none_or] at hn
    exact DesignSettings.eq_zero_of_rowCount? hcount hn

/-! ## §2 Telling two ways to split apart -/

theorem head?_splitRows {count total : Nat} (hcount : 0 < count) (htotal : 0 < total) :
    (splitRows count total).head? = some ⟨0, min count total⟩ := by
  have hpages : (total + count - 1) / count ≠ 0 := by
    refine Nat.ne_of_gt (Nat.div_pos ?_ hcount)
    omega
  obtain ⟨more, hmore⟩ := Nat.exists_eq_succ_of_ne_zero hpages
  rw [splitRows, hmore, List.range_succ_eq_map]
  simp

/-- Rows without height all fit on one page. -/
theorem splitHeights_level {limit zero : κ} (hzero : zero + zero = zero) (hlimit : ¬ limit < zero)
    (start next total : Nat) :
    splitHeights limit start next zero (List.replicate total zero) = [⟨start, next + total⟩] := by
  induction total generalizing next with
  | zero => rfl
  | succ total ih =>
    rw [List.replicate_succ, splitHeights, hzero, if_neg (by simp [hlimit]), ih,
      Nat.add_right_comm, Nat.add_assoc]

/-- The first page of rows without height shows how they were split: it has the number of rows that
was chosen, or all rows. -/
theorem head?_split_level {limit : κ} (hzero : (Coordinate.ofNat 0 + Coordinate.ofNat 0 : κ) =
    Coordinate.ofNat 0) (hlimit : ¬ limit < Coordinate.ofNat 0) {count? : Option Nat}
    (hcount : ∀ count, count? = some count → 0 < count) {total : Nat} (htotal : 0 < total) :
    (((count?.map byRows).getD (byHeight limit)).split
      (List.replicate total (Coordinate.ofNat 0))).head? =
        some ⟨0, min (count?.getD total) total⟩ := by
  have hne : (List.replicate total (Coordinate.ofNat 0 : κ)).isEmpty = false := by
    rw [List.isEmpty_eq_false_iff, ne_eq, List.replicate_eq_nil_iff]
    omega
  unfold Paging.split
  rw [hne, if_neg Bool.false_ne_true]
  -- With a count of rows the first range has as many, and without one every row has room.
  cases count? with
  | some count =>
    rw [Option.map_some, Option.getD_some, List.length_replicate]
    exact head?_splitRows (hcount count rfl) htotal
  | none =>
    rw [Option.map_none, Option.getD_none]
    simp [splitHeights_level hzero hlimit]

end Paging

/-! ## §3 Sessions -/

namespace PrintSession

/-- The heights of the rows by which a session splits them. -/
def heights (s : PrintSession κ) (d : Design κ) (master : Record) (rows : List Record) : List κ :=
  let pass : Cached (List (List κ)) := s.printer.rowHeights d master rows
  (pass.run s.cache).value.1.map Coordinate.sum

/-- The settings act on the pages through the choice of a limit, and on nothing else. -/
theorem paginate_withSettings (s : PrintSession κ) (d : Design κ) (settings : DesignSettings κ)
    (master : Record) (rows : List Record) :
    (s.paginate { d with settings } master rows).1 =
      (Paging.choose s.printer.options settings).split (s.heights d master rows) := rfl

/-- Without detail bands, rows have no height. -/
theorem heights_of_no_bands (s : PrintSession κ) (createdAt : Timestamp) (master : Record)
    (rows : List Record) :
    s.heights (.ofBands [] createdAt) master rows =
      List.replicate rows.length (Coordinate.ofNat 0) := by
  have hpass : (s.printer.rowHeights (.ofBands [] createdAt) master rows :
      Cached (List (List κ))) = pure (rows.zipIdx.map fun _ => []) :=
    List.mapM_pure
  rw [heights, hpass]
  show (rows.zipIdx.map fun _ => ([] : List κ)).map Coordinate.sum = _
  rw [List.map_map, ← List.length_zipIdx (i := 0)]
  exact List.map_const' ..

/-- A session with another height in its options. -/
def withHeight (s : PrintSession κ) (pageBodyHeight : Option κ) : PrintSession κ :=
  { s with printer := { s.printer with options := { s.printer.options with pageBodyHeight } } }

/-- The heights of the rows are none of the choices that a print pass is given. -/
theorem heights_withHeight (s : PrintSession κ) (pageBodyHeight : Option κ) (d : Design κ)
    (master : Record) (rows : List Record) :
    (s.withHeight pageBodyHeight).heights d master rows = s.heights d master rows := rfl

/-! ## §4 Settings that do not show -/

private def midsummer : DateTime := ⟨⟨2012, 6, 21, by decide, by decide⟩, .midnight⟩

/-- Settings that ask for different numbers of rows give different pages to some rows, when the
options have nothing but a height. -/
private theorem rowCount?_eq_of_paginate {s : PrintSession Float}
    {first second : DesignSettings Float} (hlimits : s.printer.options.Limits)
    (hrows : s.printer.options.rowsPerPage = none)
    (h : ∀ (d : Design Float) (master : Record) (rows : List Record),
      (s.paginate { d with settings := first } master rows).1 =
        (s.paginate { d with settings := second } master rows).1) :
    first.rowCount? = second.rowCount? := by
  obtain ⟨limit, hlimit, hpos⟩ := hlimits.pageBodyHeight (by simp [hrows])
  have hzero : (Coordinate.ofNat 0 + Coordinate.ofNat 0 : Float) = Coordinate.ofNat 0 := by
    decide +kernel
  have hlimitZero : ¬ limit < Coordinate.ofNat 0 :=
    (not_lt_iff_le hpos (float_le_refl (by decide +kernel))).mpr (float_le_of_lt hpos)
  have hcount : ∀ settings : DesignSettings Float, ∀ count, settings.rowCount? = some count →
      0 < count := fun _ _ hsome => (DesignSettings.rowCount?_eq_some_iff.mp hsome).2
  -- More rows than either number, none of which has a height.
  let total := first.rowCount?.getD 0 + second.rowCount?.getD 0 + 1
  -- The first page has as many rows as the settings say, or all of them.
  have hfirstPage : ∀ settings : DesignSettings Float,
      (s.paginate { Design.ofBands [] ⟨midsummer⟩ with settings } .empty
        (List.replicate total .empty)).1.head? =
          some ⟨0, min (settings.rowCount?.getD total) total⟩ := by
    intro settings
    rw [s.paginate_withSettings, s.heights_of_no_bands, List.length_replicate,
      Paging.choose_of_pageBodyHeight hrows hlimit hpos]
    exact Paging.head?_split_level hzero hlimitZero (hcount settings) (Nat.succ_pos _)
  -- Both settings give the same first page.
  have hsame :=
    congrArg List.head? (h (.ofBands [] ⟨midsummer⟩) .empty (List.replicate total .empty))
  rw [hfirstPage first, hfirstPage second] at hsame
  have hstop : min (first.rowCount?.getD total) total = min (second.rowCount?.getD total) total :=
    congrArg RowRange.stop (Option.some.inj hsame)
  -- A number that is given is less than all rows, so the first page tells whether it was.
  cases hone : first.rowCount? <;> cases htwo : second.rowCount? <;>
    simp only [hone, htwo, Option.getD_some, Option.getD_none, total] at hstop
  · rfl
  · omega
  · omega
  · rename_i count other
    rw [show count = other by omega]

/-- **Options come before settings, except that rows are counted before they are measured.** Let the
options give a positive number of rows on a page, or a positive height of a page. Two designs that
differ in their settings are then split into the same pages, whatever their bands and data are, just
when the options give a number of rows, be it zero, or when both settings ask for the same number.
If the options give no number and the settings do, it is the height of the options that does not
show: every other height, and none, gives the same pages. -/
theorem paginate_ignoresSettings_iff (s : PrintSession Float)
    (hlimits : s.printer.options.Limits) (first second : DesignSettings Float) :
    ((∀ (d : Design Float) (master : Record) (rows : List Record),
      (s.paginate { d with settings := first } master rows).1 =
        (s.paginate { d with settings := second } master rows).1) ↔
      s.printer.options.rowsPerPage.isSome = true ∨ first.rowCount? = second.rowCount?) ∧
    (s.printer.options.rowsPerPage = none → first.rowCount?.isSome = true →
      ∀ (height : Option Float) (d : Design Float) (master : Record) (rows : List Record),
        ((s.withHeight height).paginate { d with settings := first } master rows).1 =
          (s.paginate { d with settings := first } master rows).1) := by
  refine ⟨⟨fun h => ?_, fun h d master rows => ?_⟩, fun hrows hcount height d master rows => ?_⟩
  · -- Without a count in the options, the number in the settings can be read from the first page.
    cases hrows : s.printer.options.rowsPerPage with
    | some count => exact .inl rfl
    | none => exact .inr (rowCount?_eq_of_paginate hlimits hrows h)
  · rw [s.paginate_withSettings, s.paginate_withSettings]
    congr 1
    -- A count in the options is all that is looked at.
    by_cases hrows : s.printer.options.rowsPerPage.isSome = true
    · exact Paging.choose_of_rowsPerPage hlimits hrows first second
    · have hnone : s.printer.options.rowsPerPage = none := by simpa using hrows
      obtain ⟨limit, hlimit, hpos⟩ := hlimits.pageBodyHeight (by simp [hnone])
      rw [Paging.choose_of_pageBodyHeight hnone hlimit hpos,
        Paging.choose_of_pageBodyHeight hnone hlimit hpos, h.resolve_left hrows]
  · obtain ⟨count, hsome⟩ := Option.isSome_iff_exists.mp hcount
    obtain ⟨hsettings, hpos⟩ := DesignSettings.rowCount?_eq_some_iff.mp hsome
    -- The settings have a count, so no height of the options is asked for.
    have hchoose : ∀ options : PrintOptions Float, options.rowsPerPage = none →
        Paging.choose options first = .byRows count := fun options hnone =>
      Paging.choose_eq_byRows_iff.mpr ⟨by rw [hnone, Option.none_or, hsettings], hpos⟩
    rw [paginate_withSettings, paginate_withSettings, heights_withHeight,
      hchoose s.printer.options hrows, hchoose (s.withHeight height).printer.options hrows]

private def hundredHighPages : PrintSession Float :=
  .start ⟨.builtin, ⟨none, some 100, none, ""⟩, midsummer⟩

/-- Settings with a gap, a height and a number of rows that is zero do not show. -/
theorem paginate_ignoresSettings_gap :
    hundredHighPages.printer.options.Limits ∧
    ∀ (d : Design Float) (master : Record) (rows : List Record),
      (hundredHighPages.paginate { d with settings := ⟨5, some 7, some 0⟩ } master rows).1 =
        (hundredHighPages.paginate { d with settings := ⟨0, none, none⟩ } master rows).1 := by
  have hlimits : hundredHighPages.printer.options.Limits :=
    .inr ⟨100, rfl, by decide +kernel⟩
  exact ⟨hlimits, (paginate_ignoresSettings_iff hundredHighPages hlimits _ _).1.mpr (.inr rfl)⟩

/-- Two rows fit into the height that the options give, but the settings put each on a page. -/
theorem paginate_settings_shown :
    let d : Design Float := .ofBands [.ofHeight "d" "Detail" .detail 0 20] ⟨midsummer⟩
    hundredHighPages.printer.options.Limits ∧
    (hundredHighPages.paginate { d with settings := ⟨0, none, some 1⟩ } .empty
      [.empty, .empty]).1 = [⟨0, 1⟩, ⟨1, 2⟩] ∧
    (hundredHighPages.paginate { d with settings := ⟨0, none, none⟩ } .empty
      [.empty, .empty]).1 = [⟨0, 2⟩] := by
  exact ⟨.inr ⟨100, rfl, by decide +kernel⟩, by decide +kernel, by decide +kernel⟩

end PrintSession

end BandedReport
