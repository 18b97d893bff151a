import Mathlib.Data.Option.Basic
import BandedReport.Canvas.Document
import BandedReport.Proofs.Color
import BandedReport.Proofs.Json.Records

/-!
# Reading stored bands back

Each part of a band is written as a record and read from it again: borders, formats, the seven
types of controls with their type among their fields, controls and bands. The integers of a band
are machine integers, and the text of each of its doubles is to be read as that double.
-/

namespace BandedReport

open Json (ReadsBack Writable recordOf present fields? asInt? asNat? asNamed? asLooselyNamed?
  required fields?_recordOf asInt?_integer asNat?_integer asNamed?_name optional_map asList?_map
  writable_recordOf depth_recordOf_le isReadable_of_writable)

variable {p : Float → Prop}

/-! ## §1 Numbers -/

/-- The doubles of a frame. -/
def Frame.floats (f : Frame Float) : List Float := [f.x, f.y, f.width, f.height]

/-- The doubles of a border. -/
def Border.floats (b : Border Float) : List Float := [b.width]

/-- The doubles of a line. -/
def Line.floats (l : Line Float) : List Float := [l.x1, l.y1, l.x2, l.y2, l.strokeWidth]

/-- The doubles of a box or a line. -/
def Body.floats : Body Float → List Float
  | box frame border _ => frame.floats ++ border.floats
  | line l => l.floats

/-- The doubles of a band and its controls. -/
def Band.floats (b : Band Float) : List Float :=
  [b.top, b.bottom, b.actualBottom] ++ b.objects.flatMap (·.body.floats)

/-- The number of decimal places fits into thirty-two bits. -/
def ValueFormat.Fits (f : ValueFormat) : Prop := ∀ n ∈ f.decimalPlaces, n < 2 ^ 32

/-- The integers of a content fit. -/
def BoxContent.Fits : BoxContent → Prop
  | field _ format _ | calculated _ format _ => format.Fits
  | _ => True

/-- The integers of a box or a line fit. -/
def Body.Fits : Body Float → Prop
  | box _ _ content => content.Fits
  | line _ => True

/-- The place of a control fits into thirty-two bits with a sign, and the integers of its content
fit. -/
def Control.Fits (c : Control Float) : Prop :=
  (-2147483648 ≤ c.zIndex ∧ c.zIndex ≤ 2147483647) ∧ c.body.Fits

/-- The integers of all controls fit. -/
def Band.Fits (b : Band Float) : Prop := ∀ c ∈ b.objects, c.Fits

instance : DecidablePred ValueFormat.Fits := fun f =>
  inferInstanceAs (Decidable (∀ n ∈ f.decimalPlaces, n < 2 ^ 32))

instance : DecidablePred BoxContent.Fits
  | .field _ format _ | .calculated _ format _ => inferInstanceAs (Decidable format.Fits)
  | .text _ | .image _ | .barcode .. | .shape .. => inferInstanceAs (Decidable True)

instance : DecidablePred Body.Fits
  | .box _ _ content => inferInstanceAs (Decidable content.Fits)
  | .line _ => inferInstanceAs (Decidable True)

instance : DecidablePred Control.Fits := fun _ => inferInstanceAs (Decidable (_ ∧ _))

instance : DecidablePred Band.Fits := fun b => inferInstanceAs (Decidable (∀ c ∈ b.objects, c.Fits))

/-! ## §2 Words and colors -/

@[simp] theorem LineStyle.ofName (s : LineStyle) :
    asLooselyNamed? LineStyle.name LineStyle.all (.string s.name) = some s :=
  asNamed?_name (by decide) (by cases s <;> decide)

@[simp] theorem FormatType.ofName (t : FormatType) :
    asLooselyNamed? FormatType.name FormatType.all (.string t.name) = some t :=
  asNamed?_name (by decide) (by cases t <;> decide)

@[simp] theorem ShapeKind.ofName (k : ShapeKind) :
    asLooselyNamed? ShapeKind.name ShapeKind.all (.string k.name) = some k :=
  asNamed?_name (by decide) (by cases k <;> decide)

@[simp] theorem BandKind.ofName (k : BandKind) :
    asNamed? BandKind.name BandKind.all (.string k.name) = some k :=
  asNamed?_name (by decide) (by cases k <;> decide)

@[simp] theorem SummaryMode.ofName (m : SummaryMode) :
    asNamed? SummaryMode.name SummaryMode.all (.string m.name) = some m :=
  asNamed?_name (by decide) (by cases m <;> decide)

@[simp] theorem Color.ofJson?_toJson (c : Color) : ofJson? c.toJson = some c := by
  simp [ofJson?, toJson, Json.asString?, read?_toText]

theorem Color.writable_toJson (c : Color) : Writable p c.toJson := .string _

/-- A color that may be missing is read back. -/
@[simp] theorem Color.optional_toJson (c : Option Color) :
    Json.optional ofJson? (c.map toJson) = some c :=
  optional_map (fun c _ => ofJson?_toJson c) fun _ => Json.noConfusion

/-! ## §3 Parts of a control -/

/-- The fields of a frame. -/
def Frame.entries (f : Frame Float) : List (String × Option Json) :=
  [("x", some (.float f.x)), ("y", some (.float f.y)), ("width", some (.float f.width)),
    ("height", some (.float f.height))]

theorem Frame.toJson_eq (f : Frame Float) : f.toJson = recordOf f.entries := rfl

theorem Frame.ofJson?_toJson (f : Frame Float) : ofJson? f.toJson = some f := by
  have hfields : fields? ["x", "y", "width", "height"] f.toJson =
      some (f.entries.map Prod.snd) := fields?_recordOf f.entries rfl (by decide)
  rw [ofJson?, hfields]
  rfl

theorem Frame.writable_toJson {f : Frame Float} (h : ∀ x ∈ f.floats, p x) :
    Writable p f.toJson := by
  rw [toJson_eq]
  refine writable_recordOf ?_
  simp only [floats, List.forall_mem_cons] at h
  simp [entries, h, Writable.float]

/-- The fields of a border. -/
def Border.entries (b : Border Float) : List (String × Option Json) :=
  [("width", some (.float b.width)), ("color", b.color.map Color.toJson),
    ("style", some (.string b.style.name))]

theorem Border.toJson_eq (b : Border Float) : b.toJson = recordOf b.entries := rfl

theorem Border.ofJson?_toJson (b : Border Float) : ofJson? b.toJson = some b := by
  have hfields : fields? ["width", "color", "style"] b.toJson = some (b.entries.map Prod.snd) :=
    fields?_recordOf b.entries rfl (by decide)
  rw [ofJson?, hfields]
  simp [entries, required, Json.defaulted, Json.asFloat?]

theorem Border.writable_toJson {b : Border Float} (h : ∀ x ∈ b.floats, p x) :
    Writable p b.toJson := by
  rw [toJson_eq]
  refine writable_recordOf ?_
  simp only [floats, List.forall_mem_cons] at h
  simp [entries, h, Writable.float, Writable.string, Color.writable_toJson]

/-- The fields of a format; the places are written as null when they are not set. -/
def ValueFormat.entries (f : ValueFormat) : List (String × Option Json) :=
  [("formatType", some (.string f.formatType.name)),
    ("decimalPlaces", some ((f.decimalPlaces.map fun n : Nat => Json.integer n).getD .null))]

theorem ValueFormat.toJson_eq (f : ValueFormat) : f.toJson = recordOf f.entries := rfl

theorem ValueFormat.ofJson?_toJson {f : ValueFormat} (h : f.Fits) : ofJson? f.toJson = some f := by
  have hfields : fields? ["formatType", "decimalPlaces"] f.toJson =
      some (f.entries.map Prod.snd) := fields?_recordOf f.entries rfl (by decide)
  rw [ofJson?, hfields]
  obtain ⟨formatType, decimalPlaces⟩ := f
  cases decimalPlaces with
  | none => simp [entries, Json.defaulted, Json.optional]
  | some n =>
    have hn : asNat? 4294967296 (.integer n) = some n := asNat?_integer (h n rfl)
    simp [entries, Json.defaulted, Json.optional, hn]

theorem ValueFormat.writable_toJson {f : ValueFormat} (h : f.Fits) : Writable p f.toJson := by
  rw [toJson_eq]
  refine writable_recordOf ?_
  obtain ⟨formatType, decimalPlaces⟩ := f
  cases decimalPlaces with
  | none => simp [entries, Writable.string, Writable.null]
  | some n =>
    have hn : n < 2 ^ 32 := h n rfl
    have hint : Writable p (.integer n) := .integer ⟨by omega, by omega⟩
    simp [entries, Writable.string, hint]

/-! ## §4 Controls -/

/-- The fields of a content. -/
def BoxContent.entries : BoxContent → List (String × Option Json)
  | text t => [("text", some (.string t))]
  | field name format fallback =>
    [("fieldName", some (.string name)), ("format", some format.toJson),
      ("text", some (.string fallback))]
  | calculated formula format fallback =>
    [("formula", some (.string formula)), ("format", some format.toJson),
      ("text", some (.string fallback))]
  | image source => [("source", some (.string source))]
  | barcode symbology data =>
    [("symbology", some (.string symbology)), ("data", some (.string data))]
  | shape kind fill => [("shape", some (.string kind.name)), ("fill", fill.map Color.toJson)]

theorem BoxContent.fields_eq (c : BoxContent) : c.fields = present c.entries := by
  cases c with
  | shape kind fill => simp [fields, entries, present, Json.optionalField]
  | _ => rfl

theorem BoxContent.fieldNames?_typeName (c : BoxContent) :
    fieldNames? c.typeName = some (c.entries.map Prod.fst) := by
  cases c <;> rfl

/-- A content is found again from its type and its fields. -/
theorem BoxContent.ofFields?_entries {c : BoxContent} (h : c.Fits) :
    ofFields? c.typeName (c.entries.map Prod.snd) = some c := by
  -- The type decides which fields there are, and each is read as it was written.
  cases c with
  | text t => rfl
  | field name format fallback =>
    have hformat := ValueFormat.ofJson?_toJson h
    simp [entries, typeName, ofFields?, required, Json.defaulted, Json.asString?, hformat]
  | calculated formula format fallback =>
    have hformat := ValueFormat.ofJson?_toJson h
    simp [entries, typeName, ofFields?, required, Json.defaulted, Json.asString?, hformat]
  | image source => rfl
  | barcode symbology data => rfl
  | shape kind fill => simp [entries, typeName, ofFields?, Json.defaulted]

/-- The names of the fields of a box differ, and none of them is `type`. -/
theorem BoxContent.nodup_names (c : BoxContent) :
    ("type" :: "frame" :: "border" :: c.entries.map Prod.fst).Nodup := by
  cases c <;> simp [entries]

/-- A type that stands in front of other fields is split off. -/
theorem splitType_recordOf (typeName : String) {entries : List (String × Option Json)}
    (h : "type" ∉ entries.map Prod.fst) :
    splitType (recordOf (("type", some (.string typeName)) :: entries)) =
      some (typeName, recordOf entries) := by
  -- The type is the only field of its name: it is found once, and filtering takes it alone.
  have hother : ∀ field ∈ present entries, field.1 ≠ "type" := by
    intro field hfield heq
    exact h (heq ▸ List.mem_map_of_mem (f := Prod.fst) (Json.mem_present.mp hfield))
  -- So no other field counts as the type, and none is left out with it.
  have hcount : (present entries).countP (·.1 == "type") = 0 :=
    List.countP_eq_zero.mpr fun field hfield => by simpa using hother field hfield
  have hfilter : (present entries).filter (·.1 != "type") = present entries :=
    List.filter_eq_self.mpr fun field hfield => by simpa using hother field hfield
  show splitType (.object (("type", .string typeName) :: present entries)) = _
  simp [splitType, hcount, hfilter, recordOf, Json.asString?]

/-- The fields of a line. -/
def Line.entries (l : Line Float) : List (String × Option Json) :=
  [("x1", some (.float l.x1)), ("y1", some (.float l.y1)), ("x2", some (.float l.x2)),
    ("y2", some (.float l.y2)), ("strokeWidth", some (.float l.strokeWidth)),
    ("lineStyle", some (.string l.style.name)), ("color", some l.color.toJson)]

theorem Line.fields_eq (l : Line Float) : l.fields = present l.entries := rfl

theorem Line.ofJson?_recordOf (l : Line Float) : ofJson? (recordOf l.entries) = some l := by
  have hfields : fields? ["x1", "y1", "x2", "y2", "strokeWidth", "lineStyle", "color"]
      (recordOf l.entries) = some (l.entries.map Prod.snd) :=
    fields?_recordOf l.entries rfl (by decide)
  rw [ofJson?, hfields]
  simp [entries, required, Json.defaulted, Json.asFloat?]

/-- The fields of a box or a line, without the type. -/
def Body.entries : Body Float → List (String × Option Json)
  | box frame border content =>
    ("frame", some frame.toJson) :: ("border", some border.toJson) :: content.entries
  | line l => l.entries

/-- The name of the type of a box or a line. -/
def Body.typeName : Body Float → String
  | box _ _ content => content.typeName
  | line _ => "line"

theorem Body.toJson_eq (b : Body Float) :
    b.toJson = recordOf (("type", some (.string b.typeName)) :: b.entries) := by
  cases b with
  | box frame border content =>
    rw [toJson, BoxContent.fields_eq]
    rfl
  | line l => rfl

theorem Body.nodup_names (b : Body Float) : ("type" :: b.entries.map Prod.fst).Nodup := by
  cases b with
  | box frame border content => exact content.nodup_names
  | line l => simp [entries, Line.entries]

theorem Body.boxOfJson?_recordOf (frame : Frame Float) (border : Border Float)
    {content : BoxContent} (h : content.Fits) :
    boxOfJson? content.typeName (recordOf (box frame border content).entries) =
      some (.box frame border content) := by
  have hfields : fields? ("frame" :: "border" :: content.entries.map Prod.fst)
      (recordOf (box frame border content).entries) =
        some ((box frame border content).entries.map Prod.snd) :=
    fields?_recordOf _ rfl (List.nodup_cons.mp content.nodup_names).2
  rw [boxOfJson?, BoxContent.fieldNames?_typeName]
  simp only [Option.bind_eq_bind, Option.bind_some, hfields]
  simp [entries, required, Json.defaulted, Frame.ofJson?_toJson, Border.ofJson?_toJson,
    BoxContent.ofFields?_entries h]

theorem BoxContent.writable_entries {c : BoxContent} (h : c.Fits) :
    ∀ entry ∈ c.entries, ∀ j ∈ entry.2, Writable p j := by
  cases c with
  | field name format fallback =>
    simp [entries, Writable.string, ValueFormat.writable_toJson h]
  | calculated formula format fallback =>
    simp [entries, Writable.string, ValueFormat.writable_toJson h]
  | _ => simp [entries, Writable.string, Color.writable_toJson]

theorem Body.writable_toJson {b : Body Float} (hfits : b.Fits)
    (hfloats : ∀ x ∈ b.floats, p x) : Writable p b.toJson := by
  rw [toJson_eq]
  -- The type is a text; the other fields depend on it.
  refine writable_recordOf (List.forall_mem_cons.mpr ⟨by simp [Writable.string], ?_⟩)
  cases b with
  | box frame border content =>
    obtain ⟨hframe, hborder⟩ := List.forall_mem_append.mp hfloats
    refine List.forall_mem_cons.mpr ⟨?_, List.forall_mem_cons.mpr
      ⟨?_, BoxContent.writable_entries hfits⟩⟩
    · simp [Frame.writable_toJson hframe]
    · simp [Border.writable_toJson hborder]
  | line l =>
    simp only [floats, Line.floats, List.forall_mem_cons] at hfloats
    simp [entries, Line.entries, hfloats, Writable.float, Writable.string,
      Color.writable_toJson]

/-! ### The depth of a control -/

theorem Color.depth_toJson (c : Color) : c.toJson.depth = 0 := rfl

theorem Frame.depth_toJson (f : Frame Float) : f.toJson.depth ≤ 1 := by
  rw [toJson_eq]
  exact depth_recordOf_le (by simp [entries, Json.depth])

theorem Border.depth_toJson (b : Border Float) : b.toJson.depth ≤ 1 := by
  rw [toJson_eq]
  exact depth_recordOf_le (by simp [entries, Json.depth, Color.depth_toJson])

theorem ValueFormat.depth_toJson (f : ValueFormat) : f.toJson.depth ≤ 1 := by
  rw [toJson_eq]
  refine depth_recordOf_le ?_
  obtain ⟨formatType, _ | n⟩ := f <;> simp [entries, Json.depth]

/-- The fields of a box or a line are records of scalars at most. -/
theorem Body.depth_toJson (b : Body Float) : b.toJson.depth ≤ 2 := by
  rw [toJson_eq]
  refine depth_recordOf_le (List.forall_mem_cons.mpr ⟨by simp [Json.depth], ?_⟩)
  cases b with
  | box frame border content =>
    cases content <;> simp [entries, BoxContent.entries, Json.depth, Color.depth_toJson,
      Frame.depth_toJson, Border.depth_toJson, ValueFormat.depth_toJson]
  | line l => simp [entries, Line.entries, Json.depth, Color.depth_toJson]

/-! ### Boxes, lines and controls -/

/-- A box or a line is read back where there is room for its records. -/
theorem Body.ofJson?_toJson {b : Body Float} {outer : Nat} (houter : outer + 2 ≤ maxDepth)
    (hfits : b.Fits) (hfloats : ∀ x ∈ b.floats, ReadsBack x) :
    ofJson? outer b.toJson = some b := by
  -- All of it must be readable and lie within the depth, also before its type is looked at.
  have hreadable := isReadable_of_writable (writable_toJson hfits hfloats)
  have hdepth : b.toJson.depth + outer ≤ maxDepth := by
    have := b.depth_toJson
    omega
  -- The type is split off, and what is left are the fields that it asks for.
  have hsplit : splitType b.toJson = some (b.typeName, recordOf b.entries) := by
    rw [toJson_eq, splitType_recordOf b.typeName (List.nodup_cons.mp b.nodup_names).1]
  rw [ofJson?, hreadable, decide_eq_true hdepth, hsplit]
  cases b with
  | box frame border content =>
    -- No content in a box has the type of a line.
    have hline : content.typeName ≠ "line" := by cases content <;> simp [BoxContent.typeName]
    simp [typeName, hline, boxOfJson?_recordOf frame border hfits]
  | line l => simp [typeName, entries, Line.ofJson?_recordOf]

/-- The fields of a control. -/
def Control.entries (c : Control Float) : List (String × Option Json) :=
  [("id", some (.string c.id)), ("zIndex", some (.integer c.zIndex)),
    ("printVisible", some (.boolean c.printVisible)), ("kind", some c.body.toJson)]

theorem Control.toJson_eq (c : Control Float) : c.toJson = recordOf c.entries := rfl

theorem Control.ofJson?_toJson {c : Control Float} {outer : Nat} (houter : outer + 3 ≤ maxDepth)
    (hfits : c.Fits) (hfloats : ∀ x ∈ c.body.floats, ReadsBack x) :
    ofJson? outer c.toJson = some c := by
  have hfields : fields? ["id", "zIndex", "printVisible", "kind"] c.toJson =
      some (c.entries.map Prod.snd) := fields?_recordOf c.entries rfl (by decide)
  have hbody : Body.ofJson? (outer + 1) c.body.toJson = some c.body :=
    Body.ofJson?_toJson (by omega) hfits.2 hfloats
  have hplace := asInt?_integer hfits.1
  rw [ofJson?, hfields]
  simp [entries, required, Json.defaulted, Json.asString?, Json.asBool?, hplace, hbody]

theorem Control.writable_toJson {c : Control Float} (hfits : c.Fits)
    (hfloats : ∀ x ∈ c.body.floats, p x) : Writable p c.toJson := by
  obtain ⟨⟨hlow, hhigh⟩, hbody⟩ := hfits
  have hplace : Writable p (.integer c.zIndex) := .integer ⟨by omega, by omega⟩
  rw [toJson_eq]
  refine writable_recordOf ?_
  simp [entries, Writable.string, Writable.boolean, hplace, Body.writable_toJson hbody hfloats]

/-! ## §5 Bands -/

/-- The fields of a band. -/
def Band.entries (b : Band Float) : List (String × Option Json) :=
  [("id", some (.string b.id)), ("name", some (.string b.name)),
    ("type", some (.string b.kind.name)), ("top", some (.float b.top)),
    ("bottom", some (.float b.bottom)), ("actualBottom", some (.float b.actualBottom)),
    ("objects", some (.array (b.objects.map Control.toJson))),
    ("rowHeightFormula", b.rowHeightFormula.map .string),
    ("backgroundColorFormula", b.backgroundColorFormula.map .string),
    ("summaryDisplayMode", b.summaryMode?.map fun m => .string m.name)]

theorem Band.toJson_eq (b : Band Float) : b.toJson = recordOf b.entries := by
  simp [toJson, recordOf, entries, present, Json.optionalField]

/-- The doubles of the controls of a band are doubles of the band. -/
theorem Band.forall_mem_objects {b : Band Float}
    (h : ∀ x ∈ b.floats, p x) : ∀ c ∈ b.objects, ∀ x ∈ c.body.floats, p x := fun c hc x hx =>
  h x (List.mem_append_right _ (List.mem_flatMap.mpr ⟨c, hc, hx⟩))

/-- A formula that may be missing is read back. -/
theorem optional_string (s : Option String) :
    Json.optional Json.asString? (s.map .string) = some s :=
  optional_map (fun _ _ => rfl) fun _ => Json.noConfusion

/-- A band is read back where there is room for its controls. -/
theorem Band.ofJson?_toJson {b : Band Float} {outer : Nat} (houter : outer + 5 ≤ maxDepth)
    (hfits : b.Fits) (hfloats : ∀ x ∈ b.floats, ReadsBack x) :
    ofJson? outer b.toJson = some b := by
  -- The fields are looked up by their names, and those that nest are read one level further in.
  have hfields : fields? ["id", "name", "type", "top", "bottom", "actualBottom", "objects",
      "rowHeightFormula", "backgroundColorFormula", "summaryDisplayMode"] b.toJson =
        some (b.entries.map Prod.snd) := by
    rw [toJson_eq]
    exact fields?_recordOf b.entries rfl (by decide)
  have hobjects : Json.asList? (Control.ofJson? (outer + 2))
      (.array (b.objects.map Control.toJson)) = some b.objects :=
    asList?_map fun c hc =>
      Control.ofJson?_toJson houter (hfits c hc) (forall_mem_objects hfloats c hc)
  -- The mode is written by its name, and may be missing.
  have hmode : Json.optional (asNamed? SummaryMode.name SummaryMode.all)
      (b.summaryMode?.map fun m => .string m.name) = some b.summaryMode? :=
    optional_map (fun m _ => m.ofName) fun _ => Json.noConfusion
  rw [ofJson?, hfields]
  simp [entries, required, Json.defaulted, Json.asString?, Json.asFloat?, hobjects, hmode,
    optional_string]

theorem Band.writable_toJson {b : Band Float} (hfits : b.Fits)
    (hfloats : ∀ x ∈ b.floats, p x) : Writable p b.toJson := by
  have hobjects : Writable p (.array (b.objects.map Control.toJson)) := by
    refine .array fun j hj => ?_
    obtain ⟨c, hc, rfl⟩ := List.mem_map.mp hj
    exact Control.writable_toJson (hfits c hc) (forall_mem_objects hfloats c hc)
  rw [toJson_eq]
  refine writable_recordOf ?_
  have hfloats := (List.forall_mem_append.mp hfloats).1
  simp only [List.forall_mem_cons] at hfloats
  simp [entries, Writable.string, Writable.float, hfloats, hobjects]

end BandedReport
