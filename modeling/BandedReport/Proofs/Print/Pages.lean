import BandedReport.Print.Paging

/-!
# The pages of a report

However the rows are split, the pages tile them: each begins where the one before it ends, the
first at row zero and the last at the end. For pages of a given height this is the invariant of the
loop over the row heights, whatever these heights are; for pages of a given number of rows it is
arithmetic on the number of pages.
-/

namespace BandedReport

/-! ## §1 Tiles -/

namespace RowRange

/-- The numbers of the rows in a range. -/
def indices (r : RowRange) : List Nat := List.range' r.start (r.stop - r.start)

/-- Ranges that follow each other without a gap, from one row up to another. -/
def Tiles : Nat → List RowRange → Nat → Prop
  | start, [], stop => start = stop
  | start, r :: rest, stop => r.start = start ∧ start ≤ r.stop ∧ Tiles r.stop rest stop

theorem Tiles.le {start stop : Nat} {ranges : List RowRange} (h : Tiles start ranges stop) :
    start ≤ stop := by
  induction ranges generalizing start with
  | nil => exact Nat.le_of_eq h
  | cons r rest ih => exact Nat.le_trans h.2.1 (ih h.2.2)

theorem Tiles.stop_le {start stop : Nat} {ranges : List RowRange} (h : Tiles start ranges stop) :
    ∀ r ∈ ranges, r.stop ≤ stop := by
  induction ranges generalizing start with
  | nil => nofun
  | cons r rest ih =>
    obtain ⟨rfl, -, hrest⟩ := h
    exact List.forall_mem_cons.mpr ⟨hrest.le, ih hrest⟩

/-- The rows of tiles, one range after the other, are all rows in order. -/
theorem Tiles.flatMap_indices {start stop : Nat} {ranges : List RowRange}
    (h : Tiles start ranges stop) :
    ranges.flatMap indices = List.range' start (stop - start) := by
  induction ranges generalizing start with
  | nil =>
    cases h
    simp
  | cons r rest ih =>
    obtain ⟨rfl, hle, hrest⟩ := h
    have hstop : r.stop ≤ stop := hrest.le
    rw [List.flatMap_cons, ih hrest, indices,
      show stop - r.start = (r.stop - r.start) + (stop - r.stop) by omega,
      List.range'_append_1.symm, show r.start + (r.stop - r.start) = r.stop by omega]

/-- The rows of a range. -/
def slice {α : Type} (r : RowRange) (rows : List α) : List α :=
  (rows.drop r.start).take (r.stop - r.start)

/-- What tiles cut out of a list, one piece after the other, is the list. -/
theorem Tiles.flatMap_slice {α : Type} {start stop : Nat} {ranges : List RowRange}
    (h : Tiles start ranges stop) (rows : List α) :
    ranges.flatMap (·.slice rows) = (rows.drop start).take (stop - start) := by
  induction ranges generalizing start with
  | nil =>
    cases h
    simp
  | cons r rest ih =>
    obtain ⟨rfl, hle, hrest⟩ := h
    -- The first range is what is taken first, and the others take what is left.
    have hstop : r.stop ≤ stop := hrest.le
    have hstart : r.start + (r.stop - r.start) = r.stop := by omega
    rw [List.flatMap_cons, ih hrest, slice,
      show stop - r.start = (r.stop - r.start) + (stop - r.stop) by omega, List.take_add,
      List.drop_drop, hstart]

end RowRange

/-- The ranges are pages of a number of rows: there is one at least, they tile the rows, and none
is empty unless there are no rows. -/
structure IsPaging (ranges : List RowRange) (total : Nat) : Prop where
  ne_nil : ranges ≠ []
  tiles : RowRange.Tiles 0 ranges total
  start_lt_stop : 0 < total → ∀ r ∈ ranges, r.start < r.stop

namespace Paging

open RowRange (Tiles)

/-! ## §2 A fixed number of rows -/

/-- All pages but one are full, and the rows on the last are no more than fit. -/
private theorem exists_pageCount {count total : Nat} (hcount : 0 < count) (htotal : 0 < total) :
    ∃ full, (total + count - 1) / count = full + 1 ∧ full * count < total ∧
      total ≤ full * count + count := by
  have hdiv : count * ((total + count - 1) / count) + (total + count - 1) % count =
    total + count - 1 := Nat.div_add_mod _ _
  have hmod : (total + count - 1) % count < count := Nat.mod_lt _ hcount
  cases hpages : (total + count - 1) / count with
  | zero =>
    rw [hpages] at hdiv
    omega
  | succ full =>
    rw [hpages, Nat.mul_succ, Nat.mul_comm count] at hdiv
    exact ⟨full, rfl, by omega, by omega⟩

/-- The pages from one on, of which all but the last are full. -/
private theorem tiles_fullPages {count total : Nat} (first more : Nat)
    (hfull : (first + more) * count < total) (hlast : total ≤ (first + more) * count + count) :
    Tiles (first * count)
      ((List.range' first (more + 1)).map fun i => ⟨i * count, min (i * count + count) total⟩)
      total := by
  induction more generalizing first with
  | zero =>
    -- The last page has what is left over.
    simp only [Nat.add_zero] at hfull hlast
    refine ⟨rfl, ?_, ?_⟩
    · simp only
      omega
    · show min (first * count + count) total = total
      omega
  | succ more ih =>
    -- The next page begins where this one is full.
    have hnext : (first + 1) * count = first * count + count := Nat.succ_mul first count
    have hle : (first + 1) * count ≤ (first + (more + 1)) * count :=
      Nat.mul_le_mul_right count (by omega)
    rw [List.range'_succ, List.map_cons]
    refine ⟨rfl, ?_, ?_⟩
    · simp only
      omega
    · -- The page is full, so the next one begins where the count says.
      have hmin : min (first * count + count) total = (first + 1) * count := by omega
      rw [show first + (more + 1) = first + 1 + more by omega] at hfull hlast
      simp only [hmin]
      exact ih (first + 1) hfull hlast

theorem isPaging_splitRows {count total : Nat} (hcount : 0 < count) (htotal : 0 < total) :
    IsPaging (splitRows count total) total := by
  obtain ⟨full, hpages, hfull, hlast⟩ := exists_pageCount hcount htotal
  rw [splitRows, hpages, List.range_eq_range']
  refine ⟨by simp, ?_, fun _ r hr => ?_⟩
  · have htiles := tiles_fullPages 0 full (by rwa [Nat.zero_add]) (by rwa [Nat.zero_add])
    rwa [Nat.zero_mul] at htiles
  · obtain ⟨i, hi, rfl⟩ := List.mem_map.mp hr
    have hle : i * count ≤ full * count := Nat.mul_le_mul_right count (by simp at hi; omega)
    simp only
    omega

/-- Every page but the last is full. -/
theorem stop_eq_of_mem_dropLast_splitRows {count total : Nat} (hcount : 0 < count)
    (htotal : 0 < total) {r : RowRange} (hr : r ∈ (splitRows count total).dropLast) :
    r.stop = r.start + count := by
  obtain ⟨full, hpages, hfull, -⟩ := exists_pageCount hcount htotal
  rw [splitRows, hpages, List.range_succ, List.map_append, List.map_singleton,
    List.dropLast_concat] at hr
  obtain ⟨i, hi, rfl⟩ := List.mem_map.mp hr
  have hle : (i + 1) * count ≤ full * count :=
    Nat.mul_le_mul_right count (List.mem_range.mp hi)
  rw [Nat.succ_mul] at hle
  simp only
  omega

/-! ## §3 As many rows as fit -/

variable {κ : Type} [Coordinate κ]

/-- The loop over the heights: the present page begins at `start`, and all rows before `next` are
on it or on earlier pages. -/
theorem tiles_splitHeights (limit : κ) {start next : Nat} (used : κ) (heights : List κ)
    (h : start ≤ next) :
    Tiles start (splitHeights limit start next used heights) (next + heights.length) := by
  induction heights generalizing start next used with
  | nil => exact ⟨rfl, h, rfl⟩
  | cons height rest ih =>
    rw [List.length_cons, show next + (rest.length + 1) = next + 1 + rest.length by omega,
      splitHeights]
    split
    · exact ⟨rfl, h, ih _ (Nat.le_succ next)⟩
    · exact ih _ (Nat.le_succ_of_le h)

/-- A page is closed only when it has a row, and the last one gets the last row. -/
theorem start_lt_stop_splitHeights (limit : κ) {start next : Nat} (used : κ) (heights : List κ)
    (h : start < next + heights.length) :
    ∀ r ∈ splitHeights limit start next used heights, r.start < r.stop := by
  induction heights generalizing start next used with
  | nil =>
    -- No row is left, and the range that is open has at least one.
    intro r hr
    rw [splitHeights, List.mem_singleton] at hr
    rw [hr]
    exact h
  | cons height rest ih =>
    rw [List.length_cons] at h
    rw [splitHeights]
    split
    · -- The range is closed only if it has a row.
      rename_i hclose
      simp only [Bool.and_eq_true, decide_eq_true_eq] at hclose
      exact List.forall_mem_cons.mpr ⟨hclose.1, ih _ (by omega)⟩
    · -- The row goes into the range that is open.
      exact ih _ (by omega)

theorem splitHeights_ne_nil (limit : κ) (start next : Nat) (used : κ) (heights : List κ) :
    splitHeights limit start next used heights ≠ [] := by
  induction heights generalizing start next used with
  | nil => exact List.cons_ne_nil _ _
  | cons height rest ih =>
    rw [splitHeights]
    split
    · exact List.cons_ne_nil _ _
    · exact ih _ _ _

/-! ## §4 All ways to split -/

/-- A number of rows on a page is chosen exactly when a positive one is asked for. -/
theorem choose_eq_byRows_iff {o : PrintOptions κ} {s : DesignSettings κ} {count : Nat} :
    choose o s = byRows count ↔ o.rowsPerPage.or s.rowsPerPage = some count ∧ 0 < count := by
  have hfilter : (o.rowsPerPage.or s.rowsPerPage).filter (fun n => 0 < n) = some count ↔
      o.rowsPerPage.or s.rowsPerPage = some count ∧ 0 < count := by
    simp [Option.filter_eq_some_iff]
  rw [← hfilter, choose]
  cases (o.rowsPerPage.or s.rowsPerPage).filter fun n => 0 < n with
  | some n => simp
  | none =>
    cases (o.pageBodyHeight.or s.pageBodyHeight).filter fun h => Coordinate.ofNat 0 < h with
    | some h => simp
    | none => simp

/-- However the rows are split, the result is a paging of all of them. -/
theorem isPaging_split {p : Paging κ} (hp : ∀ count, p = byRows count → 0 < count)
    (heights : List κ) : IsPaging (p.split heights) heights.length := by
  unfold Paging.split
  -- No heights make one range without rows.
  cases heights with
  | nil => exact ⟨by simp, ⟨rfl, Nat.le_refl 0, rfl⟩, fun h => absurd h (Nat.lt_irrefl 0)⟩
  | cons height rest =>
    have hpos : 0 < (height :: rest).length := Nat.succ_pos _
    rw [List.isEmpty_cons, if_neg Bool.false_ne_true]
    cases p with
    | onePage => exact ⟨by simp, ⟨rfl, Nat.zero_le _, rfl⟩, fun _ => by simp⟩
    | byRows count => exact isPaging_splitRows (hp count rfl) hpos
    | byHeight limit =>
      refine ⟨splitHeights_ne_nil _ _ _ _ _, ?_, fun h => ?_⟩
      · have htiles := tiles_splitHeights limit (Coordinate.ofNat 0) (height :: rest)
          (Nat.le_refl 0)
        rwa [Nat.zero_add] at htiles
      · exact start_lt_stop_splitHeights _ _ _ (by rwa [Nat.zero_add])

theorem stop_eq_of_mem_dropLast_split {count : Nat} (hcount : 0 < count) {heights : List κ}
    {r : RowRange} (hr : r ∈ ((byRows count).split heights).dropLast) :
    r.stop = r.start + count := by
  unfold Paging.split at hr
  cases heights with
  | nil => cases hr
  | cons height rest => exact stop_eq_of_mem_dropLast_splitRows hcount (Nat.succ_pos _) hr

end Paging

end BandedReport
