import BandedReport.Design.Document
import BandedReport.Proofs.Canvas.Documents

/-!
# Loading a saved design

A design is saved as a text and loaded from it again. What is loaded is the design that was saved,
whatever its bands, controls, strings, colors, formats and settings are, if its doubles are finite.
Of the texts of doubles and instants it is taken for granted that they are read as what was
written.
-/

namespace BandedReport

open Json (ReadsBack Writable recordOf fields? asNat? required fields?_recordOf asNat?_integer
  optional_map asList?_map writable_recordOf ofText?_pretty)

variable {p : Float → Prop}

/-! ## §1 Settings -/

/-- The doubles of settings. -/
def DesignSettings.floats (s : DesignSettings Float) : List Float :=
  s.bandSpacing :: s.pageBodyHeight.toList

/-- The number of rows on a page fits into sixty-four bits. -/
def DesignSettings.Fits (s : DesignSettings Float) : Prop := ∀ n ∈ s.rowsPerPage, n < 2 ^ 64

instance : DecidablePred DesignSettings.Fits := fun s =>
  inferInstanceAs (Decidable (∀ n ∈ s.rowsPerPage, n < 2 ^ 64))

/-- The fields of settings. -/
def DesignSettings.entries (s : DesignSettings Float) : List (String × Option Json) :=
  [("bandSpacing", some (.float s.bandSpacing)), ("pageBodyHeight", s.pageBodyHeight.map .float),
    ("rowsPerPage", s.rowsPerPage.map fun n : Nat => Json.integer n)]

theorem DesignSettings.toJson_eq (s : DesignSettings Float) : s.toJson = recordOf s.entries := by
  simp [toJson, recordOf, entries, Json.present, Json.optionalField]

theorem DesignSettings.ofJson?_toJson {s : DesignSettings Float} (h : s.Fits) :
    ofJson? s.toJson = some s := by
  have hfields : fields? ["bandSpacing", "pageBodyHeight", "rowsPerPage"] s.toJson =
      some (s.entries.map Prod.snd) := by
    rw [toJson_eq]
    exact fields?_recordOf s.entries rfl (by decide)
  have hheight : Json.optional Json.asFloat? (s.pageBodyHeight.map .float) =
      some s.pageBodyHeight := optional_map (fun _ _ => rfl) fun _ => Json.noConfusion
  have hrows : Json.optional (asNat? 18446744073709551616)
      (s.rowsPerPage.map fun n : Nat => Json.integer n) = some s.rowsPerPage :=
    optional_map (fun n hn => asNat?_integer (h n hn)) fun _ => Json.noConfusion
  rw [ofJson?, hfields]
  simp [entries, Json.defaulted, Json.asFloat?, hheight, hrows]

theorem DesignSettings.writable_toJson {s : DesignSettings Float} (hfits : s.Fits)
    (hfloats : ∀ x ∈ s.floats, p x) : Writable p s.toJson := by
  obtain ⟨hspacing, hheight⟩ := List.forall_mem_cons.mp hfloats
  -- Row counts are within the integers of a document.
  have hrows : ∀ n ∈ s.rowsPerPage, Writable p (.integer n) := by
    intro n hn
    have := hfits n hn
    exact .integer ⟨by omega, by omega⟩
  rw [toJson_eq]
  refine writable_recordOf ?_
  simp only [Option.mem_toList] at hheight
  have hheights : ∀ x, s.pageBodyHeight = some x → Writable p (.float x) :=
    fun x hx => .float (hheight x hx)
  simp only [Option.mem_def] at hrows
  simpa [entries, Writable.float, hspacing] using ⟨hheights, hrows⟩

/-! ## §2 Designs -/

theorem Timestamp.ofJson?_string (text : String) : ofJson? (.string text) = read? text := by
  simp [ofJson?, Json.asString?]

namespace Design

/-- The doubles of a design. -/
def floats (d : Design Float) : List Float := d.bands.flatMap Band.floats ++ d.settings.floats

/-- The integers of a design fit into the machine integers that hold them. -/
def Fits (d : Design Float) : Prop := (∀ b ∈ d.bands, b.Fits) ∧ d.settings.Fits

instance : DecidablePred Fits := fun d =>
  inferInstanceAs (Decidable ((∀ b ∈ d.bands, b.Fits) ∧ d.settings.Fits))

/-- The fields of a design. -/
def entries (d : Design Float) : List (String × Option Json) :=
  [("bands", some (.array (d.bands.map Band.toJson))), ("version", some (.string d.version)),
    ("createdAt", some (.string d.createdAt.toText)), ("settings", some d.settings.toJson)]

theorem toJson_eq (d : Design Float) : d.toJson = recordOf d.entries := rfl

/-- The doubles of the bands and of the settings are doubles of the design. -/
theorem forall_mem_bands {d : Design Float} (h : ∀ x ∈ d.floats, p x) :
    (∀ b ∈ d.bands, ∀ x ∈ b.floats, p x) ∧ ∀ x ∈ d.settings.floats, p x := by
  obtain ⟨hbands, hsettings⟩ := List.forall_mem_append.mp h
  exact ⟨fun b hb x hx => hbands x (List.mem_flatMap.mpr ⟨b, hb, hx⟩), hsettings⟩

theorem writable_toJson {d : Design Float} (hfits : d.Fits)
    (hfloats : ∀ x ∈ d.floats, p x) : Writable p d.toJson := by
  obtain ⟨hbands, hsettings⟩ := forall_mem_bands hfloats
  have harray : Writable p (.array (d.bands.map Band.toJson)) := by
    refine .array fun j hj => ?_
    obtain ⟨b, hb, rfl⟩ := List.mem_map.mp hj
    exact b.writable_toJson (hfits.1 b hb) (hbands b hb)
  rw [toJson_eq]
  refine writable_recordOf ?_
  simp [entries, Writable.string, harray, DesignSettings.writable_toJson hfits.2 hsettings]

/-- The tree of a design is read as the design. -/
theorem ofJson?_toJson {d : Design Float} (hfits : d.Fits)
    (hfloats : ∀ x ∈ d.floats, ReadsBack x)
    (hinstant : Timestamp.read? d.createdAt.toText = some d.createdAt) :
    ofJson? d.toJson = some d := by
  obtain ⟨hbands, hsettings⟩ := forall_mem_bands hfloats
  -- The fields are found by their names, in the order they are read.
  have hfields : fields? ["bands", "version", "createdAt", "settings"] d.toJson =
      some (d.entries.map Prod.snd) := fields?_recordOf d.entries rfl (by decide)
  have hlist : Json.asList? (Band.ofJson? 2) (.array (d.bands.map Band.toJson)) = some d.bands :=
    -- Five containers are open around the parts of a control.
    asList?_map fun b hb => b.ofJson?_toJson (by decide) (hfits.1 b hb) (hbands b hb)
  have hcreated := (Timestamp.ofJson?_string d.createdAt.toText).trans hinstant
  -- Each of them is read back.
  rw [ofJson?, hfields]
  simp [entries, required, Json.defaulted, Json.asString?, hlist, hcreated,
    DesignSettings.ofJson?_toJson hfits.2]

/-- A saved design loads back unchanged: whatever its bands, controls, strings, colors, formats,
formulas and settings are, if its doubles are finite. The texts of its doubles and of its instant
are taken to be read as what was written. -/
theorem ofText?_toText {d : Design Float} (hfits : d.Fits)
    (hfinite : ∀ x ∈ d.floats, x.isFinite = true)
    (hnumbers : ∀ x ∈ d.floats, x.isFinite = true → ReadsBack x)
    (hinstant : Timestamp.read? d.createdAt.toText = some d.createdAt) :
    ofText? d.toText = some d := by
  have hfloats : ∀ x ∈ d.floats, ReadsBack x := fun x hx => hnumbers x hx (hfinite x hx)
  rw [ofText?, toText, ofText?_pretty (writable_toJson hfits hfloats), Option.bind_some,
    ofJson?_toJson hfits hfloats hinstant]

/-- A band with a translucent shape, a formula with two decimal places and a line. -/
private def priceTag : Design Float where
  bands := [{
    id := "b1", name := "Detail", kind := .detail, top := 0, bottom := 40.5, actualBottom := 40.5
    objects := [
      ⟨"s1", 1, true, .box ⟨0, 0, 100, 40.5⟩ .empty (.shape .ellipse (some ⟨255, 0, 0, 128⟩))⟩,
      ⟨"c1", -2, false, .box ⟨4, 4, 60, 20⟩ (.solid 0.5)
        (.calculated "\x7bprice\x7d * 2" ⟨.currency, some 2⟩ "\"n/a\"\n")⟩,
      ⟨"l1", 3, true, .line ⟨0, 40, 100, 40, 1, .dotted, .black⟩⟩]
    rowHeightFormula := some "40.5", backgroundColorFormula := none, summaryMode? := none }]
  version := "1.0"
  createdAt := ⟨⟨⟨2024, 5, 1, by decide, by decide⟩,
    { TimeOfDay.midnight with hour := 12, hour_lt := by decide }⟩⟩
  settings := ⟨0, some 500.25, none⟩

private theorem priceTag_fits : priceTag.Fits := by
  simp [Fits, priceTag, Band.Fits, Control.Fits, Body.Fits, BoxContent.Fits, ValueFormat.Fits,
    DesignSettings.Fits]

/-- The hypotheses hold of a design with a shape, a formula and a line. -/
theorem ofText?_toText_priceTag : ofText? priceTag.toText = some priceTag :=
  ofText?_toText priceTag_fits (by decide +kernel) (by decide +kernel) (by decide +kernel)

end Design

end BandedReport
