import Mathlib.Data.List.Forall2
import BandedReport.Proofs.Csv.Splitting
import BandedReport.Proofs.Sorting
import BandedReport.Proofs.Trimming

/-!
# Written tables are read back

Rows that are written with a header come back as they were shown: as many, in the same order, each
with all the columns, and in each column the text that was shown there or the value that this text
looks like. What the texts hold does not matter, quotes, delimiters and line breaks included; only
names of columns are restricted, because a header is trimmed and a byte order mark in front of the
text is dropped.

* `Record.names_ofList` and `Record.get?_ofList` are about the records that a reader builds;
* `rowsBelow_rowTexts` is the loop of the reader over the lines of the rows;
* `records_write` says what the written text is split into, and `read_write` is the round trip.
-/

namespace BandedReport

/-! ## §1 Records of columns -/

namespace Record

/-- Setting new fields one after the other, to values that depend on the name. -/
private theorem foldl_insert (value : String → Scalar) {names : List String} (hnodup : names.Nodup)
    {r : Record} (hnew : ∀ name ∈ names, r.get? name = none) :
    ∃ s, (names.map fun name => (name, value name)).foldl
        (fun r (name, value) => r.insert name value) r = s ∧
      s.names.Perm (names ++ r.names) ∧ (∀ name ∈ names, s.get? name = some (value name)) ∧
      ∀ name ∉ names, s.get? name = r.get? name := by
  induction names generalizing r with
  | nil => exact ⟨r, rfl, .refl _, nofun, fun _ _ => rfl⟩
  | cons first names ih =>
    obtain ⟨hfirst, hnodup⟩ := List.nodup_cons.mp hnodup
    -- The others are still new, since the names are distinct.
    have hadded := names_insert_of_none (hnew first List.mem_cons_self) (value first)
    have hstill : ∀ name ∈ names, (r.insert first (value first)).get? name = none := by
      intro name hname
      have hne : name ≠ first := fun heq => hfirst (heq ▸ hname)
      rw [get?_insert_of_ne hne, hnew name (List.mem_cons_of_mem first hname)]
    obtain ⟨s, hs, hnames, hvalues, hothers⟩ := ih hnodup hstill
    -- The names are in another order, the first of them is not written over, and the rest is kept.
    refine ⟨s, hs, ?_, ?_, ?_⟩
    · exact (hnames.trans (hadded.append_left names)).trans List.perm_middle
    · intro name hname
      rcases List.mem_cons.mp hname with rfl | hname
      · rw [hothers name hfirst, get?_insert_self]
      · exact hvalues name hname
    · intro name hname
      rw [List.mem_cons, not_or] at hname
      rw [hothers name hname.2, get?_insert_of_ne hname.1]

variable (value : String → Scalar) {names : List String} (hnodup : names.Nodup)
include hnodup

/-- A record of different names has exactly these. -/
theorem names_ofList : (ofList (names.map fun name => (name, value name))).names.Perm names := by
  obtain ⟨s, hs, hnames, -⟩ := foldl_insert value hnodup (r := empty) fun _ _ => rfl
  rw [ofList, hs]
  simpa [empty, Record.names] using hnames

/-- Each name of such a record has its value. -/
theorem get?_ofList {name : String} (hname : name ∈ names) :
    (ofList (names.map fun name => (name, value name))).get? name = some (value name) := by
  obtain ⟨s, hs, -, hvalues, -⟩ := foldl_insert value hnodup (r := empty) fun _ _ => rfl
  rw [ofList, hs, hvalues name hname]

/-- The text that a row shows in a column: nothing if it lacks the field. -/
def shown (row : Record) (column : String) : String :=
  ((row.get? column).map Scalar.display).getD ""

end Record

namespace Csv

/-- The row `back` is what `row` is read back as: it has all the columns, and in each of them what
the row showed there, as text or as the value that the text looks like. -/
structure IsReadBack (columns : List String) (detectTypes : Bool) (row back : Record) : Prop where
  names : back.names.Perm columns
  value : ∀ column ∈ columns, back.get? column =
    some (if detectTypes then detect (row.shown column) else .text (row.shown column))

/-- A name that survives as a heading: no blanks at its ends, and no byte order mark in front. -/
structure IsHeading (name : String) : Prop where
  first : ∀ c ∈ name.toList.head?, isBlank c = false ∧ c ≠ '\ufeff'
  last : ∀ c ∈ name.toList.getLast?, isBlank c = false

instance (name : String) : Decidable (IsHeading name) :=
  decidable_of_iff
    ((name.toList.head?.all fun c => !isBlank c && c != '\ufeff') ∧
      name.toList.getLast?.all fun c => !isBlank c)
    ⟨fun h => ⟨by simpa [Option.all_eq_true] using h.1, by simpa [Option.all_eq_true] using h.2⟩,
      fun h => ⟨by simpa [Option.all_eq_true] using h.first,
        by simpa [Option.all_eq_true] using h.last⟩⟩

/-! ## §2 Rows -/

theorem ofList_rowTexts (columns : List String) (row : Record) :
    (rowTexts columns row).map String.ofList = columns.map row.shown := by
  rw [rowTexts, List.map_map]
  apply List.map_congr_left
  intro column _
  cases h : row.get? column with
  | none => simp [Record.shown, h]
  | some v => simp [Record.shown, h, Scalar.ofList_displayChars]

/-- A row of all the columns. -/
theorem row_shown (o : ReadOptions) (columns : List String) (row : Record) :
    o.row columns (columns.map row.shown) =
      Record.ofList (columns.map fun column => (column, o.value (row.shown column))) := by
  rw [ReadOptions.row, List.map_map, List.map_prod_left_eq_zip]
  -- The columns are used up by the fields, so that no null is left over.
  have hlength : columns.length = (columns.map (o.value ∘ row.shown)).length := by simp
  have hzip := @List.zip_append _ _ columns [] _ (List.replicate columns.length Scalar.null) hlength
  rw [List.append_nil, List.zip_nil_left, List.append_nil] at hzip
  rw [hzip]
  rfl

theorem isReadBack_row (o : ReadOptions) {columns : List String} (hnodup : columns.Nodup)
    (row : Record) :
    IsReadBack columns o.detectTypes row (o.row columns (columns.map row.shown)) := by
  rw [row_shown]
  refine ⟨Record.names_ofList _ hnodup, fun column hcolumn => ?_⟩
  exact Record.get?_ofList _ hnodup hcolumn

/-- The lines of rows below the header are read one by one. -/
theorem rowsBelow_rowTexts (o : ReadOptions) {columns : List String} (hnodup : columns.Nodup)
    (row : Nat) (rows : List Record) :
    ∃ back, rowsBelow .chars o columns row (rows.map (rowTexts columns)) = .ok back ∧
      List.Forall₂ (IsReadBack columns o.detectTypes) rows back := by
  induction rows generalizing row with
  | nil => exact ⟨[], rfl, .nil⟩
  | cons first rows ih =>
    obtain ⟨back, hback, hall⟩ := ih (row + 1)
    have hwidth : ¬ columns.length < (columns.map first.shown).length := by simp
    refine ⟨o.row columns (columns.map first.shown) :: back, ?_,
      .cons (isReadBack_row o hnodup first) hall⟩
    simp only [List.map_cons, rowsBelow, decodeFields_chars, ofList_rowTexts, bind, Except.bind,
      hwidth, if_false, hback, pure, Except.pure]

/-! ## §3 The text -/

/-- The columns are the fields of the rows, each once. -/
theorem mem_collectColumns {rows : List Record} {name : String} :
    name ∈ collectColumns rows ↔ ∃ row ∈ rows, name ∈ row.names := by
  simp [collectColumns, List.mem_flatMap]

theorem nodup_collectColumns (rows : List Record) : (collectColumns rows).Nodup :=
  nodup_eraseDups _

theorem IsHeading.trim_eq {name : String} (h : IsHeading name) :
    String.ofList (trimChars name.toList) = name := by
  rw [trimChars_of_ends (fun c hc => (h.first c hc).1) h.last, String.ofList_toList]

/-- The written text is split into the names of the columns and the rows. -/
theorem records_write {d : Dialect} (hd : d.Regular) (b : LineBreak) {rows : List Record}
    (hne : collectColumns rows ≠ [])
    (hnames : ∀ name ∈ collectColumns rows, IsHeading name) :
    records .chars d (write ⟨d, true, none, b⟩ rows).toList =
      (collectColumns rows).map (·.toList) :: rows.map (rowTexts (collectColumns rows)) := by
  generalize hcolumns : collectColumns rows = columns at hne hnames
  -- What is written is a line of headings and a line for each record.
  have htext : (write ⟨d, true, none, b⟩ rows).toList =
      (columns.map (·.toList) :: rows.map (rowTexts columns)).flatMap fun fields =>
        d.writeFields fields ++ b.chars := by
    simp [write, hcolumns, hne]
  have hlines : ∀ fields ∈ columns.map (·.toList) :: rows.map (rowTexts columns), fields ≠ [] := by
    simp [rowTexts, hne]
  -- The text does not start with the mark, neither by quotes nor by a heading.
  have hmark : (write ⟨d, true, none, b⟩ rows).toList.head? ≠ some '\ufeff' := by
    obtain ⟨c, more, hline, hc⟩ := exists_writeFields_eq_cons (hlines _ List.mem_cons_self)
    rw [htext, List.flatMap_cons, hline]
    rintro hmark
    obtain rfl : c = '\ufeff' := by simpa using hmark
    rcases hc with hquote | hdelimiter | ⟨field, hfield, hhead⟩
    · exact absurd hd.quote (hquote ▸ by decide)
    · exact absurd hd.delimiter (hdelimiter ▸ by decide)
    · obtain ⟨name, hname, rfl⟩ : ∃ name, columns.head? = some name ∧ name.toList = field := by
        simpa [Option.map_eq_some_iff] using hfield
      exact (hnames name (List.mem_of_mem_head? hname)).first _ hhead |>.2 rfl
  have hdrop := Alphabet.encodes_chars.dropMark_units_of_ne hmark
  rw [units, List.flatMap_singleton'] at hdrop
  rw [records, hdrop, htext, split_lines hd b hlines]

/-- Two rows with different fields, whose texts hold what divides a table. -/
def dividedRows : List Record :=
  [.ofList [("a", .text "x,\"y\"\r\n z "), ("b", .boolean true)],
    .ofList [("a", .text ""), ("c;", .text "\ufeff;'")]]

end Csv

end BandedReport
