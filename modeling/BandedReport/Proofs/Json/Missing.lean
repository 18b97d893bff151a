import BandedReport.Proofs.Decimal.Sign
import BandedReport.Proofs.Json.Records

/-!
# Doubles that are written as null

The text of a double that is not finite is `null`. So the text of a value that holds such doubles is
the text of another value, which has nulls in their places (`Json.written`), and that value is what
is read back. A reader that expects a number there refuses it.
-/

namespace BandedReport.Json

/-- The value that is written: a double that is not finite becomes null. -/
def written : Json → Json
  | float x => if x.isFinite then float x else null
  | array items => array (writtenItems items)
  | object fields => object (writtenFields fields)
  | j => j
where
  /-- The items that are written. -/
  writtenItems : List Json → List Json
    | [] => []
    | j :: js => written j :: writtenItems js
  /-- The fields that are written. -/
  writtenFields : List (String × Json) → List (String × Json)
    | [] => []
    | (k, j) :: js => (k, written j) :: writtenFields js

theorem writtenItems_eq (items : List Json) : written.writtenItems items = items.map written := by
  induction items with
  | nil => rfl
  | cons j items ih => rw [written.writtenItems, ih, List.map_cons]

theorem writtenFields_eq (fields : List (String × Json)) :
    written.writtenFields fields = fields.map fun field => (field.1, written field.2) := by
  induction fields with
  | nil => rfl
  | cons field fields ih => rw [written.writtenFields, ih, List.map_cons]

@[simp] theorem written_array (items : List Json) :
    written (.array items) = .array (items.map written) := by
  rw [written, writtenItems_eq]

@[simp] theorem written_string (s : String) : written (.string s) = .string s := rfl

theorem written_float_of_finite {x : Float} (h : x.isFinite = true) :
    written (.float x) = .float x := by
  rw [written, if_pos h]

theorem written_float_of_not_finite {x : Float} (h : x.isFinite = false) :
    written (.float x) = .null := by
  rw [written, h]
  rfl

/-- A record is written field by field. -/
theorem written_recordOf (entries : List (String × Option Json)) :
    written (recordOf entries) =
      recordOf (entries.map fun entry => (entry.1, entry.2.map written)) := by
  rw [recordOf, written, writtenFields_eq, recordOf]
  congr 1
  induction entries with
  | nil => rfl
  | cons entry entries ih =>
    obtain ⟨name, value⟩ := entry
    simp only [List.map_cons, present_cons, List.map_append, ih]
    cases value <;> rfl

/-! ## §1 The text -/

theorem floatChars_of_not_finite {x : Float} (h : x.isFinite = false) :
    floatChars x = ['n', 'u', 'l', 'l'] := by
  have hunpack : x.toModel.unpack.isFinite = false := h
  rw [floatChars, Binary.ofFloat_eq]
  cases hx : x.toModel.unpack with
  | notANumber | infinity => rfl
  | zero | finite =>
    rw [hx] at hunpack
    cases hunpack

theorem prettyItems_written {items : List Json}
    (h : ∀ j ∈ items, ∀ level rest, (written j).writePretty level rest = j.writePretty level rest)
    (level : Nat) (rest : List Char) :
    writePretty.prettyItems (items.map written) level rest =
      writePretty.prettyItems items level rest := by
  induction items with
  | nil => rfl
  | cons j items ih =>
    obtain ⟨hj, hitems⟩ := List.forall_mem_cons.mp h
    simp only [List.map_cons, writePretty.prettyItems, hj, ih hitems]

theorem prettyFields_written {fields : List (String × Json)}
    (h : ∀ field ∈ fields, ∀ level rest,
      (written field.2).writePretty level rest = field.2.writePretty level rest)
    (level : Nat) (rest : List Char) :
    writePretty.prettyFields (fields.map fun field => (field.1, written field.2)) level rest =
      writePretty.prettyFields fields level rest := by
  induction fields with
  | nil => rfl
  | cons field fields ih =>
    obtain ⟨hfield, hfields⟩ := List.forall_mem_cons.mp h
    simp only [List.map_cons, writePretty.prettyFields, hfield, ih hfields]

/-- What is written has the same text, wherever it stands. -/
theorem writePretty_written {p : Float → Prop} {j : Json} (h : Writable p j) :
    ∀ level rest, (written j).writePretty level rest = j.writePretty level rest := by
  -- A number that is missing is written as null already, and everything else is kept.
  induction h with
  | @float x _ =>
    intro level rest
    cases hx : x.isFinite with
    | true => rw [written_float_of_finite hx]
    | false =>
      rw [written_float_of_not_finite hx]
      simp only [writePretty, writeCompact, floatChars_of_not_finite hx]
      rfl
  | @array items _ ih =>
    intro level rest
    rw [written_array]
    -- The first item is written without a comma, so it stands apart.
    cases items with
    | nil => rfl
    | cons j items =>
      obtain ⟨hj, hitems⟩ := List.forall_mem_cons.mp ih
      simp only [List.map_cons, writePretty, hj, prettyItems_written hitems]
  | @object fields _ ih =>
    intro level rest
    rw [written, writtenFields_eq]
    cases fields with
    | nil => rfl
    | cons field fields =>
      -- The same for the first field.
      obtain ⟨hfield, hfields⟩ := List.forall_mem_cons.mp ih
      simp only [List.map_cons, writePretty, hfield, prettyFields_written hfields]
  | null | boolean | integer | string => exact fun _ _ => rfl

/-- What is written has no doubles but finite ones. -/
theorem writable_written {p : Float → Prop} {j : Json}
    (h : Writable (fun x => x.isFinite = true → p x) j) : Writable p (written j) := by
  induction h with
  | @float x hx =>
    -- A finite number stays, and any other becomes null.
    cases hfinite : x.isFinite with
    | true =>
      rw [written_float_of_finite hfinite]
      exact .float (hx hfinite)
    | false =>
      rw [written_float_of_not_finite hfinite]
      exact .null
  | array _ ih =>
    rw [written_array]
    exact .array (List.forall_mem_map.mpr ih)
  | object _ ih =>
    rw [written, writtenFields_eq]
    exact .object (List.forall_mem_map.mpr ih)
  | null => exact .null
  | boolean b => exact .boolean b
  | integer hn => exact .integer hn
  | string s => exact .string s

/-- The text of a value is read as the value that was written, if finite doubles are read back. -/
theorem ofText?_pretty_written {j : Json}
    (h : Writable (fun x => x.isFinite = true → ReadsBack x) j) :
    ofText? j.pretty = some (written j) := by
  have htext : (written j).pretty = j.pretty := by
    rw [pretty, pretty, writePretty_written h]
  rw [← htext, ofText?_pretty (writable_written h)]

/-! ## §2 Readers -/

/-- A double is read from what is written just if it is finite. -/
theorem asFloat?_written (x : Float) :
    asFloat? (written (.float x)) = if x.isFinite then some x else none := by
  cases hx : x.isFinite with
  | true => rw [written_float_of_finite hx]; rfl
  | false => rw [written_float_of_not_finite hx]; rfl

/-- The fields of a written record are the written fields. -/
theorem fields?_written_recordOf {names : List String} (entries : List (String × Option Json))
    (hnames : entries.map Prod.fst = names) (hnodup : names.Nodup) :
    fields? names (written (recordOf entries)) =
      some (entries.map fun entry => entry.2.map written) := by
  have hwritten :
      (entries.map fun entry => (entry.1, entry.2.map written)).map Prod.fst = names := by
    rw [List.map_map]
    exact hnames
  rw [written_recordOf, fields?_recordOf _ hwritten hnodup, List.map_map]
  rfl

/-- A list of which one item cannot be read cannot be read. -/
theorem asList?_eq_none {α : Type} {decode : Decoder α} {items : List Json} {j : Json}
    (hj : j ∈ items) (h : decode j = none) : asList? decode (.array items) = none := by
  rw [asList?]
  induction items with
  | nil => cases hj
  | cons first items ih =>
    rw [List.mapM_cons]
    rcases List.mem_cons.mp hj with rfl | hj
    · rw [h]
      rfl
    · rw [ih hj]
      cases decode first <;> rfl

end BandedReport.Json
