import Mathlib.Data.List.Forall2
import Mathlib.Data.List.Nodup
import BandedReport.Proofs.Csv.Encoding
import BandedReport.Proofs.Decimal.Numerals
import BandedReport.Proofs.Outcome

/-!
# The columns of a table

A delimited text is a table: its columns have names, and each row has a field in every column, or
ends before. With a header the columns are known from the start, so every record has all of them and
is null where its row ends early. Without one a record is made as soon as its row is read, and has
only the columns that were known by then.

* `Record.mem_names_ofList` and `Record.get?_ofList_of_last` are about the records that a reader
  builds: they have the names that were set, and under each name what was set last;
* `read_eq_ok_iff` says when a text can be read and which rows it gives;
* `read_rectangular_iff` says what each record holds, and when all of them have all the columns.
-/

namespace BandedReport

/-! ## §1 Records of fields -/

namespace Record

private theorem mem_names_foldl (fields : List (String × Scalar)) (r : Record) (name : String) :
    name ∈ (fields.foldl (fun r (name, value) => r.insert name value) r).names ↔
      name ∈ r.names ∨ name ∈ fields.map (·.1) := by
  induction fields generalizing r with
  | nil => simp
  | cons field rest ih =>
    rw [List.foldl_cons, ih, mem_names_insert, List.map_cons, List.mem_cons, or_assoc]
    exact or_left_comm

private theorem pairwise_names_foldl (fields : List (String × Scalar)) {r : Record}
    (h : r.names.Pairwise (· < ·)) :
    (fields.foldl (fun r (name, value) => r.insert name value) r).names.Pairwise (· < ·) := by
  induction fields generalizing r with
  | nil => exact h
  | cons field rest ih => exact ih (pairwise_names_insert h field.1 field.2)

private theorem get?_foldl_of_notMem {fields : List (String × Scalar)} {name : String}
    (h : name ∉ fields.map (·.1)) (r : Record) :
    (fields.foldl (fun r (name, value) => r.insert name value) r).get? name = r.get? name := by
  induction fields generalizing r with
  | nil => rfl
  | cons field rest ih =>
    rw [List.map_cons, List.mem_cons, not_or] at h
    rw [List.foldl_cons, ih h.2, get?_insert_of_ne h.1]

/-- The names of a record are those that were set. -/
theorem mem_names_ofList {fields : List (String × Scalar)} {name : String} :
    name ∈ (ofList fields).names ↔ name ∈ fields.map (·.1) := by
  rw [ofList, mem_names_foldl]
  simp [empty, names]

/-- A record has each name once. -/
theorem nodup_names_ofList (fields : List (String × Scalar)) : (ofList fields).names.Nodup := by
  have hsorted : (ofList fields).names.Pairwise (· < ·) := pairwise_names_foldl fields .nil
  exact hsorted.imp String.ne_of_lt

/-- Of the values that a name is set to, the last one counts. -/
theorem get?_ofList_of_last {fields : List (String × Scalar)} {i : Nat} {name : String}
    {value : Scalar} (hfield : fields[i]? = some (name, value))
    (hlast : name ∉ (fields.drop (i + 1)).map (·.1)) :
    (ofList fields).get? name = some value := by
  obtain ⟨hi, hvalue⟩ := List.getElem?_eq_some_iff.mp hfield
  rw [ofList, ← List.take_append_drop i fields, List.foldl_append, List.drop_eq_getElem_cons hi,
    hvalue, List.foldl_cons, get?_foldl_of_notMem hlast, get?_insert_self]

end Record

namespace Csv

/-! ## §2 Tables -/

/-- A table: the names of its columns and the fields of its rows. -/
structure Table where
  columns : List String
  rows : List (List String)

/-- The number of fields of the widest row. -/
def widest (rows : List (List String)) : Nat := (rows.map List.length).foldr max 0

theorem widest_cons (fields : List String) (rows : List (List String)) :
    widest (fields :: rows) = max fields.length (widest rows) := rfl

theorem length_le_widest {rows : List (List String)} :
    ∀ fields ∈ rows, fields.length ≤ widest rows := by
  induction rows with
  | nil => nofun
  | cons first rows ih =>
    rw [widest_cons]
    exact List.forall_mem_cons.mpr
      ⟨Nat.le_max_left .., fun fields h => Nat.le_trans (ih fields h) (Nat.le_max_right ..)⟩

theorem widest_le {rows : List (List String)} {width : Nat}
    (h : ∀ fields ∈ rows, fields.length ≤ width) : widest rows ≤ width := by
  induction rows with
  | nil => exact Nat.zero_le width
  | cons first rows ih =>
    obtain ⟨hfirst, hrows⟩ := List.forall_mem_cons.mp h
    exact Nat.max_le.mpr ⟨hfirst, ih hrows⟩

@[simp] theorem length_columnNames (count : Nat) : (columnNames count).length = count := by
  simp [columnNames]

/-- Columns that are named by their number have different names. -/
theorem nodup_columnNames (count : Nat) : (columnNames count).Nodup := by
  refine List.Nodup.map (fun i j h => ?_) List.nodup_range
  have hdigits : digitsOf (i + 1) = digitsOf (j + 1) :=
    String.ofList_injective ((String.append_right_inj _).mp h)
  have hvalue := congrArg digitsValue hdigits
  rw [digitsValue_digitsOf, digitsValue_digitsOf] at hvalue
  exact Nat.succ.inj hvalue

namespace ReadOptions

/-- The table that lines of fields are. With a header the first line names the columns; without one
there are as many columns as the widest line has fields. -/
def table (o : ReadOptions) (lines : List (List String)) : Table :=
  if o.hasHeader then ⟨(lines.headD []).map trimText, lines.tail⟩
  else ⟨columnNames (widest lines), lines⟩

/-- The columns that are known when the row of an index was read. -/
def columnsAt (o : ReadOptions) (t : Table) (index : Nat) : List String :=
  if o.hasHeader then t.columns else columnNames (widest (t.rows.take (index + 1)))

/-- The value of a row in the column of an index, which is null beyond the end of the row. -/
def cell (o : ReadOptions) (fields : List String) (column : Nat) : Scalar :=
  (fields[column]?.map o.value).getD .null

/-- A record of some columns: it has their names, each once, and under each name the value that the
row has in the last column of that name. -/
structure Holds (o : ReadOptions) (columns fields : List String) (r : Record) : Prop where
  mem_names : ∀ name, name ∈ r.names ↔ name ∈ columns
  nodup : r.names.Nodup
  value : ∀ i name, columns[i]? = some name → name ∉ columns.drop (i + 1) →
    r.get? name = some (o.cell fields i)

/-- A record that is a row of a table: it has one name for each column, and under it the value that
the row has in the column. -/
structure IsRow (o : ReadOptions) (columns fields : List String) (r : Record) : Prop where
  names : r.names.Perm columns
  value : ∀ i name, columns[i]? = some name → r.get? name = some (o.cell fields i)

variable {o : ReadOptions} {columns fields : List String} {r : Record}

/-- Among different names each is the last. -/
theorem Holds.isRow (h : o.Holds columns fields r) (hnodup : columns.Nodup) :
    o.IsRow columns fields r := by
  refine ⟨(List.perm_ext_iff_of_nodup h.nodup hnodup).mpr h.mem_names, fun i name hname => ?_⟩
  refine h.value i name hname fun hlater => ?_
  obtain ⟨hi, rfl⟩ := List.getElem?_eq_some_iff.mp hname
  rw [← List.take_append_drop (i + 1) columns, List.nodup_append] at hnodup
  exact hnodup.2.2 _ (List.mem_take_iff_getElem.mpr ⟨i, by omega, rfl⟩) _ hlater rfl

theorem Holds.nodup_of_isRow (h : o.Holds columns fields r) {others : List String}
    (hrow : o.IsRow others fields r) : others.Nodup :=
  hrow.names.nodup_iff.mp h.nodup

/-- The record of a row holds what the row says. -/
theorem holds_row (o : ReadOptions) (columns fields : List String) :
    o.Holds columns fields (o.row columns fields) := by
  -- Every column has a value, so the names of the pairs are the columns.
  have hlength : columns.length ≤
      (fields.map o.value ++ List.replicate columns.length Scalar.null).length := by
    rw [List.length_append, List.length_replicate]
    exact Nat.le_add_left ..
  have hnames := List.map_fst_zip hlength
  refine ⟨fun name => ?_, Record.nodup_names_ofList _, fun i name hname hlast => ?_⟩
  · rw [row, Record.mem_names_ofList, hnames]
  · refine Record.get?_ofList_of_last (i := i) ?_ ?_
    · rw [List.getElem?_zip_eq_some]
      refine ⟨hname, ?_⟩
      have hi : i < columns.length := (List.getElem?_eq_some_iff.mp hname).1
      -- The fields come first, and behind them there are nulls for all the other columns.
      rw [List.getElem?_append, List.length_map, List.getElem?_map, cell]
      split
      · rename_i hfield
        rw [List.getElem?_eq_getElem hfield]
        rfl
      · rename_i hfield
        rw [List.getElem?_replicate, if_pos (by omega), List.getElem?_eq_none (by omega)]
        rfl
    · rwa [List.map_drop, hnames]

end ReadOptions

/-! ## §3 Reading -/

variable {α : Type} {A : Alphabet α} {o : ReadOptions} {rows : List Record}

theorem rowsBelow_cons_eq_ok_iff {columns : List String} {row : Nat} {line : List (List α)}
    {lines : List (List (List α))} :
    rowsBelow A o columns row (line :: lines) = .ok rows ↔ ∃ fields more,
      decodeFields A line = .ok fields ∧ fields.length ≤ columns.length ∧
        rowsBelow A o columns (row + 1) lines = .ok more ∧ o.row columns fields :: more = rows := by
  rw [rowsBelow, bind_eq_ok_iff]
  refine exists_congr fun fields => ?_
  simp only [exists_and_left]
  refine and_congr_right fun _ => ?_
  rcases Nat.lt_or_ge columns.length fields.length with hlong | hshort
  · simp [hlong, Nat.not_le.mpr hlong, bind, Except.bind]
  · simp only [Nat.not_lt.mpr hshort, hshort, if_false, true_and, bind_eq_ok_iff, pure_eq_ok_iff]

/-- The rows below a header can be read when none of them is longer. -/
theorem rowsBelow_eq_ok_iff {columns : List String} {row : Nat} {lines : List (List (List α))} :
    rowsBelow A o columns row lines = .ok rows ↔ ∃ texts, lines.mapM (decodeFields A) = .ok texts ∧
      (∀ fields ∈ texts, fields.length ≤ columns.length) ∧ rows = texts.map (o.row columns) := by
  induction lines generalizing row rows with
  | nil => simp [rowsBelow, pure, Except.pure, eq_comm]
  | cons line lines ih =>
    rw [rowsBelow_cons_eq_ok_iff]
    constructor
    · rintro ⟨fields, more, hfields, hlength, hmore, rfl⟩
      -- The row of this line comes before the rows of the others.
      obtain ⟨texts, htexts, hlengths, rfl⟩ := ih.mp hmore
      exact ⟨fields :: texts, mapM_cons_eq_ok_iff.mpr ⟨fields, texts, hfields, htexts, rfl⟩,
        List.forall_mem_cons.mpr ⟨hlength, hlengths⟩, rfl⟩
    · rintro ⟨_, htexts, hlengths, rfl⟩
      obtain ⟨fields, texts, hfields, hrest, rfl⟩ := mapM_cons_eq_ok_iff.mp htexts
      obtain ⟨hlength, hlengths⟩ := List.forall_mem_cons.mp hlengths
      exact ⟨fields, texts.map (o.row columns), hfields, hlength,
        ih.mpr ⟨texts, hrest, hlengths, rfl⟩, rfl⟩

/-- Without a header the columns of a row are as many as the widest row up to it has fields. -/
theorem rowsUnnamed_eq_ok_iff {width : Nat} {lines : List (List (List α))} :
    rowsUnnamed A o width lines = .ok rows ↔ ∃ texts, lines.mapM (decodeFields A) = .ok texts ∧
      rows = texts.mapIdx fun k fields =>
        o.row (columnNames (max width (widest (texts.take (k + 1))))) fields := by
  induction lines generalizing width rows with
  | nil => simp [rowsUnnamed, pure, Except.pure, eq_comm]
  | cons line lines ih =>
    simp only [rowsUnnamed, bind_eq_ok_iff, pure_eq_ok_iff, ih]
    -- The first row widens what is known before the others.
    have hrows : ∀ fields texts, (fields :: texts).mapIdx (fun k line =>
        o.row (columnNames (max width (widest ((fields :: texts).take (k + 1))))) line) =
        o.row (columnNames (max width fields.length)) fields :: texts.mapIdx fun k line =>
          o.row (columnNames
            (max (max width fields.length) (widest (texts.take (k + 1))))) line := by
      intro fields texts
      simp only [List.mapIdx_cons, List.take_succ_cons, widest_cons, Nat.max_assoc]
      simp [widest]
    constructor
    · rintro ⟨fields, hfields, more, ⟨texts, htexts, rfl⟩, rfl⟩
      exact ⟨fields :: texts, mapM_cons_eq_ok_iff.mpr ⟨fields, texts, hfields, htexts, rfl⟩,
        (hrows fields texts).symm⟩
    · rintro ⟨_, htexts, rfl⟩
      obtain ⟨fields, texts, hfields, hrest, rfl⟩ := mapM_cons_eq_ok_iff.mp htexts
      exact ⟨fields, hfields, _, ⟨texts, hrest, rfl⟩, (hrows fields texts).symm⟩

/-- A text is read if its fields are texts and, with a header, no row is longer than that; each row
gives a record of the columns that are known with it. -/
theorem read_eq_ok_iff [BEq α] {text : List α} :
    read A o text = .ok rows ↔ ∃ lines,
      (records A o.dialect text).mapM (decodeFields A) = .ok lines ∧
      (o.hasHeader = true → ∀ fields ∈ (o.table lines).rows,
        fields.length ≤ (o.table lines).columns.length) ∧
      rows = (o.table lines).rows.mapIdx fun k fields =>
        o.row (o.columnsAt (o.table lines) k) fields := by
  unfold read ReadOptions.table ReadOptions.columnsAt
  cases o.hasHeader with
  | false =>
    simp only [Bool.false_eq_true, if_false, rowsUnnamed_eq_ok_iff, false_implies, true_and,
      Nat.zero_max]
  | true =>
    simp only [if_true, true_implies]
    have hmap : ∀ (columns : List String) (texts : List (List String)),
        (texts.mapIdx fun _ fields => o.row columns fields) = texts.map (o.row columns) :=
      fun _ _ => List.ext_getElem (by simp) (by simp)
    -- The first line, if there is one, names the columns.
    cases records A o.dialect text with
    | nil => simp [pure, Except.pure, eq_comm]
    | cons header lines =>
      simp only [bind_eq_ok_iff, rowsBelow_eq_ok_iff, mapM_cons_eq_ok_iff, hmap]
      constructor
      · rintro ⟨names, hnames, texts, htexts, hlengths, rfl⟩
        exact ⟨names :: texts, ⟨names, texts, hnames, htexts, rfl⟩, hlengths, rfl⟩
      · rintro ⟨_, ⟨names, texts, hnames, htexts, rfl⟩, hlengths, rfl⟩
        exact ⟨names, hnames, texts, htexts, hlengths, rfl⟩

/-! ## §4 Rectangular rows -/

namespace ReadOptions

/-- With a header all rows have the columns of the table. -/
theorem columnsAt_of_hasHeader (h : o.hasHeader = true) (t : Table) (k : Nat) :
    o.columnsAt t k = t.columns := if_pos h

/-- Without a header the first row has as many columns as it has fields. -/
theorem columnsAt_zero_of_not_hasHeader (h : o.hasHeader = false) {lines : List (List String)} :
    o.columnsAt (o.table lines) 0 = columnNames (lines.headD []).length := by
  cases lines <;> simp [columnsAt, table, h, widest]

/-- Without a header all rows have the columns of the table if the first row has them. -/
theorem columnsAt_of_first_widest (h : o.hasHeader = false) {lines : List (List String)}
    (hfirst : ∀ fields ∈ lines, fields.length ≤ (lines.headD []).length) (k : Nat) :
    o.columnsAt (o.table lines) k = (o.table lines).columns := by
  cases lines with
  | nil => simp [columnsAt, table, h]
  | cons first lines =>
    -- The widest of the first rows is between the first and the widest of all.
    have hwidest : ∀ part, part ⊆ first :: lines → widest (first :: part) = first.length := by
      intro part hpart
      refine Nat.le_antisymm (widest_le fun fields hfields => ?_)
        (length_le_widest first List.mem_cons_self)
      exact hfirst fields (List.cons_subset.mpr ⟨List.mem_cons_self, hpart⟩ hfields)
    have htake := hwidest (lines.take k) fun _ h => List.mem_cons_of_mem _ (List.mem_of_mem_take h)
    have hlines := hwidest lines (List.subset_cons_self _ _)
    simp [columnsAt, table, h, htake, hlines]

end ReadOptions

/-- **The rows of a table.** A text that can be read is a table, and gives one record for each of
its rows, in the same order. The record has the columns that were known when its row was read, each
name once; of the columns of one name it has the value of the last; it is null where the row has
ended.
The records are the rows of the table, with all its columns and each column under a name of its own,
just when there are none, or when with a header all columns have different names, or when without
one the first row is the longest. -/
theorem read_rectangular_iff [BEq α] {text : List α} (h : read A o text = .ok rows) :
    ∃ lines, (records A o.dialect text).mapM (decodeFields A) = .ok lines ∧
      rows.length = (o.table lines).rows.length ∧
      (∀ k fields row, (o.table lines).rows[k]? = some fields → rows[k]? = some row →
        o.Holds (o.columnsAt (o.table lines) k) fields row) ∧
      (List.Forall₂ (o.IsRow (o.table lines).columns) (o.table lines).rows rows ↔
        rows = [] ∨ if o.hasHeader then (o.table lines).columns.Nodup
          else ∀ fields ∈ lines, fields.length ≤ (lines.headD []).length) := by
  obtain ⟨lines, hlines, -, hrows⟩ := read_eq_ok_iff.mp h
  -- Every line below the heading has its record, in its place.
  have hlength : rows.length = (o.table lines).rows.length := by
    rw [hrows, List.length_mapIdx]
  have hholds : ∀ k fields row, (o.table lines).rows[k]? = some fields → rows[k]? = some row →
      o.Holds (o.columnsAt (o.table lines) k) fields row := by
    intro k fields row hfields hrow
    rw [hrows, List.getElem?_mapIdx, hfields, Option.map_some, Option.some.injEq] at hrow
    exact hrow ▸ o.holds_row _ fields
  refine ⟨lines, hlines, hlength, hholds, fun hall => ?_, fun h => ?_⟩
  · -- If all the records are rows of the columns, the first one is.
    cases rows with
    | nil => exact .inl rfl
    | cons row rows =>
      obtain ⟨fields, others, hrow, -, hfields⟩ := List.forall₂_cons_right_iff.mp hall
      have hfirst := hholds 0 fields row (by rw [hfields]; rfl) rfl
      refine .inr ?_
      cases hheader : o.hasHeader with
      | true =>
        rw [if_pos rfl]
        exact hfirst.nodup_of_isRow hrow
      | false =>
        -- The first record has only the columns of the first row.
        rw [o.columnsAt_zero_of_not_hasHeader hheader] at hfirst
        have hnames := (hfirst.isRow (nodup_columnNames _)).names.symm.trans hrow.names
        have hwidest : widest lines = (lines.headD []).length := by
          simpa [ReadOptions.table, hheader] using hnames.length_eq.symm
        rw [if_neg Bool.false_ne_true, ← hwidest]
        exact length_le_widest
  · rcases h with rfl | h
    · -- No line means no record to speak of.
      rw [List.length_nil, eq_comm, List.length_eq_zero_iff] at hlength
      rw [hlength]
      exact .nil
    · -- The columns are distinct, and they are the same at every row.
      have hcolumns : (o.table lines).columns.Nodup ∧
          ∀ k, o.columnsAt (o.table lines) k = (o.table lines).columns := by
        cases hheader : o.hasHeader with
        | true =>
          rw [hheader, if_pos rfl] at h
          exact ⟨h, o.columnsAt_of_hasHeader hheader _⟩
        | false =>
          rw [hheader, if_neg Bool.false_ne_true] at h
          refine ⟨?_, o.columnsAt_of_first_widest hheader h⟩
          simp [ReadOptions.table, hheader, nodup_columnNames]
      refine List.forall₂_iff_get.mpr ⟨hlength.symm, fun k hfields hrow => ?_⟩
      have hrowAt := hholds k _ _ (List.getElem?_eq_getElem hfields) (List.getElem?_eq_getElem hrow)
      rw [hcolumns.2 k] at hrowAt
      exact hrowAt.isRow hcolumns.1

/-- A row that ends before the second column of the header is a row of the table. -/
theorem read_rectangular_short :
    ∃ rows, read .chars ⟨.standard, true, false⟩ "a,b\n1\n".toList = .ok rows ∧
      List.Forall₂ (ReadOptions.IsRow ⟨.standard, true, false⟩ ["a", "b"]) [["1"]] rows := by
  refine ⟨_, rfl, ?_⟩
  obtain ⟨lines, hlines, -, -, hall⟩ := read_rectangular_iff
    (show read .chars ⟨.standard, true, false⟩ "a,b\n1\n".toList = .ok _ from rfl)
  obtain rfl : [["a", "b"], ["1"]] = lines := Except.ok.inj hlines
  exact hall.mpr (.inr (by decide))

/-- A first row that is shorter than the next does not have its columns. -/
theorem read_unnamed_growing :
    (read .bytes ⟨.standard, false, true⟩ "1\n2,3\n".toUTF8.toList).map (·.map Record.names) =
      .ok [["column1"], ["column1", "column2"]] := by
  have hascii : Dialect.standard.IsAscii := ⟨by decide, by decide⟩
  rw [show "1\n2,3\n" = String.ofList "1\n2,3\n".toList from rfl, read_toUTF8 _ hascii]
  rfl

end Csv

end BandedReport
