import BandedReport.Proofs.Canvas.Locality
import BandedReport.Proofs.Design.RoundTrip
import BandedReport.Proofs.Json.Missing

/-!
# Designs that do not load again

A double that is not finite is saved as null. Where the design needs a number, the null is refused,
and with it the control, the band and the design it is in: one such double in a control makes the
whole design unreadable.
-/

namespace BandedReport

open Json (ReadsBack Writable recordOf written required fields? asFloat?_written
  fields?_written_recordOf asList?_eq_none written_recordOf ofText?_pretty_written)

/-! ## §1 Controls -/

theorem Line.ofJson?_written {l : Line Float} {x : Float} (hx : x ∈ l.floats)
    (hmissing : x.isFinite = false) : ofJson? (written (recordOf l.entries)) = none := by
  have hfields : fields? ["x1", "y1", "x2", "y2", "strokeWidth", "lineStyle", "color"]
      (written (recordOf l.entries)) = some (l.entries.map fun entry => entry.2.map written) :=
    fields?_written_recordOf l.entries rfl (by decide)
  rw [ofJson?, hfields]
  simp only [floats, List.mem_cons, List.not_mem_nil, or_false] at hx
  rcases hx with rfl | rfl | rfl | rfl | rfl
  all_goals simp [entries, required, asFloat?_written, hmissing]

theorem Frame.ofJson?_written {f : Frame Float} {x : Float} (hx : x ∈ f.floats)
    (hmissing : x.isFinite = false) : ofJson? (written f.toJson) = none := by
  have hfields : fields? ["x", "y", "width", "height"] (written f.toJson) =
      some (f.entries.map fun entry => entry.2.map written) :=
    fields?_written_recordOf f.entries rfl (by decide)
  rw [ofJson?, hfields]
  simp only [floats, List.mem_cons, List.not_mem_nil, or_false] at hx
  rcases hx with rfl | rfl | rfl | rfl
  all_goals simp [entries, required, asFloat?_written, hmissing]

theorem Border.ofJson?_written {b : Border Float} {x : Float} (hx : x ∈ b.floats)
    (hmissing : x.isFinite = false) : ofJson? (written b.toJson) = none := by
  have hfields : fields? ["width", "color", "style"] (written b.toJson) =
      some (b.entries.map fun entry => entry.2.map written) :=
    fields?_written_recordOf b.entries rfl (by decide)
  obtain rfl : x = b.width := List.mem_singleton.mp hx
  rw [ofJson?, hfields]
  simp [entries, required, asFloat?_written, hmissing]

/-- What is left of a box or a line when its type is split off. -/
theorem splitType_written (b : Body Float) :
    splitType (written b.toJson) = some (b.typeName, written (recordOf b.entries)) := by
  have hnames :
      "type" ∉ (b.entries.map fun entry => (entry.1, entry.2.map written)).map Prod.fst := by
    rw [List.map_map]
    exact (List.nodup_cons.mp b.nodup_names).1
  rw [Body.toJson_eq, written_recordOf, written_recordOf, List.map_cons, Option.map_some,
    Json.written_string, splitType_recordOf b.typeName hnames]

/-- A box or a line with a double that is not finite is not read. -/
theorem Body.ofJson?_written {b : Body Float} {x : Float} (hx : x ∈ b.floats)
    (hmissing : x.isFinite = false) (outer : Nat) : ofJson? outer (written b.toJson) = none := by
  rw [ofJson?, splitType_written]
  cases b with
  | box frame border content =>
    -- A box has a type of its own, so it is not read as a line.
    have hline : content.typeName ≠ "line" := by cases content <;> simp [BoxContent.typeName]
    have hfields : fields? ("frame" :: "border" :: content.entries.map Prod.fst)
        (written (recordOf (box frame border content).entries)) =
          some ((box frame border content).entries.map fun entry => entry.2.map written) :=
      fields?_written_recordOf _ rfl (List.nodup_cons.mp content.nodup_names).2
    have hbox : boxOfJson? content.typeName
        (written (recordOf (box frame border content).entries)) = none := by
      rw [boxOfJson?, BoxContent.fieldNames?_typeName]
      simp only [Option.bind_eq_bind, Option.bind_some, hfields]
      -- The missing number is in the frame or in the border.
      rcases List.mem_append.mp hx with hx | hx
      · simp [entries, required, Frame.ofJson?_written hx hmissing]
      · simp [entries, required, Json.defaulted, Border.ofJson?_written hx hmissing]
    simp [typeName, hline, hbox]
  | line l => simp [typeName, entries, Line.ofJson?_written hx hmissing]

theorem Control.ofJson?_written {c : Control Float} {x : Float} (hx : x ∈ c.body.floats)
    (hmissing : x.isFinite = false) (outer : Nat) : ofJson? outer (written c.toJson) = none := by
  have hfields : fields? ["id", "zIndex", "printVisible", "kind"] (written c.toJson) =
      some (c.entries.map fun entry => entry.2.map written) :=
    fields?_written_recordOf c.entries rfl (by decide)
  rw [ofJson?, hfields]
  simp [entries, required, Body.ofJson?_written hx hmissing]

/-! ## §2 Bands and designs -/

/-- A band with a control that is not read is not read. -/
theorem Band.ofJson?_written {b : Band Float} {c : Control Float} (hc : c ∈ b.objects) {x : Float}
    (hx : x ∈ c.body.floats) (hmissing : x.isFinite = false) (outer : Nat) :
    ofJson? outer (written b.toJson) = none := by
  have hfields : fields? ["id", "name", "type", "top", "bottom", "actualBottom", "objects",
      "rowHeightFormula", "backgroundColorFormula", "summaryDisplayMode"] (written b.toJson) =
        some (b.entries.map fun entry => entry.2.map written) := by
    rw [toJson_eq]
    exact fields?_written_recordOf b.entries rfl (by decide)
  have hobjects : Json.asList? (Control.ofJson? (outer + 2))
      (.array (b.objects.map (written ∘ Control.toJson))) = none :=
    asList?_eq_none (List.mem_map_of_mem hc) (Control.ofJson?_written hx hmissing (outer + 2))
  rw [ofJson?, hfields]
  simp [entries, Json.defaulted, hobjects]

namespace Design

/-- A saved design with a double in a control that is not finite does not load, whatever else is in
it. Finite doubles are taken to be read as what was written. -/
theorem ofText?_toText_eq_none {d : Design Float} (hfits : d.Fits)
    (hnumbers : ∀ x ∈ d.floats, x.isFinite = true → ReadsBack x) {c : Control Float}
    (hc : c ∈ allObjects d.bands) {x : Float} (hx : x ∈ c.body.floats)
    (hmissing : x.isFinite = false) : ofText? d.toText = none := by
  -- The control stands in a band, and the band in the list of bands.
  obtain ⟨b, hb, hcb⟩ := mem_allObjects.mp hc
  have hfields : fields? ["bands", "version", "createdAt", "settings"] (written d.toJson) =
      some (d.entries.map fun entry => entry.2.map written) :=
    fields?_written_recordOf d.entries rfl (by decide)
  -- One band that cannot be read is enough for the list not to be read.
  have hbands : Json.asList? (Band.ofJson? 2)
      (.array (d.bands.map (written ∘ Band.toJson))) = none :=
    asList?_eq_none (List.mem_map_of_mem hb) (Band.ofJson?_written hcb hx hmissing 2)
  rw [ofText?, toText, ofText?_pretty_written (writable_toJson hfits hnumbers), Option.bind_some,
    ofJson?, hfields]
  simp [entries, required, hbands]

end Design

end BandedReport
