import BandedReport.Canvas.Selection
import BandedReport.Json.Decode

/-!
# Bands and controls in JSON

The stored form of bands and controls. A control is an object with the fields that all controls
share and a `kind`, whose field `type` tells what the other fields are. Fields that have a default
may be absent; they are always written, except for colors, formulas and modes that are not set.
-/

namespace BandedReport

open Json (required defaulted optional asFloat? asString? asBool? asInt? asNat? asList? asNamed?
  asLooselyNamed? fields? optionalField)

/-! ## Words -/

/-- The word for a stroke. -/
def LineStyle.name : LineStyle → String
  | solid => "solid"
  | dashed => "dashed"
  | dotted => "dotted"

/-- The strokes. -/
def LineStyle.all : List LineStyle := [.solid, .dashed, .dotted]

/-- The word for a way to format. -/
def FormatType.name : FormatType → String
  | general => "general"
  | number => "number"
  | currency => "currency"
  | percent => "percent"
  | date => "date"
  | chineseUpper => "chineseUpper"

/-- The ways to format. -/
def FormatType.all : List FormatType :=
  [.general, .number, .currency, .percent, .date, .chineseUpper]

/-- The word for a shape. -/
def ShapeKind.name : ShapeKind → String
  | rectangle => "rectangle"
  | roundedRectangle => "roundedRectangle"
  | ellipse => "ellipse"

/-- The shapes. -/
def ShapeKind.all : List ShapeKind := [.rectangle, .roundedRectangle, .ellipse]

/-- The word for a kind of band. -/
def BandKind.name : BandKind → String
  | header => "header"
  | detail => "detail"
  | summary => "summary"
  | footer => "footer"

/-- The kinds of bands. -/
def BandKind.all : List BandKind := [.header, .detail, .summary, .footer]

/-- The word for the pages of a summary. -/
def SummaryMode.name : SummaryMode → String
  | lastPage => "lastPage"
  | everyPage => "everyPage"

/-- The choices of pages for a summary. -/
def SummaryMode.all : List SummaryMode := [.lastPage, .everyPage]

/-! ## Parts of a control -/

/-- A color is written in its hexadecimal form. -/
def Color.toJson (c : Color) : Json := .string c.toText

/-- A color is read in any of its forms. -/
def Color.ofJson? (j : Json) : Option Color := (asString? j).bind Color.read?

/-- The JSON form of a frame. -/
def Frame.toJson (f : Frame Float) : Json :=
  .object [("x", .float f.x), ("y", .float f.y), ("width", .float f.width),
    ("height", .float f.height)]

/-- Read a frame. -/
def Frame.ofJson? (j : Json) : Option (Frame Float) := do
  match ← fields? ["x", "y", "width", "height"] j with
  | [x, y, width, height] =>
    return ⟨← required asFloat? x, ← required asFloat? y, ← required asFloat? width,
      ← required asFloat? height⟩
  | _ => none

/-- The JSON form of a border. -/
def Border.toJson (b : Border Float) : Json :=
  .object (("width", .float b.width) :: optionalField "color" (b.color.map Color.toJson) ++
    [("style", .string b.style.name)])

/-- Read a border; it is solid unless its style is given. -/
def Border.ofJson? (j : Json) : Option (Border Float) := do
  match ← fields? ["width", "color", "style"] j with
  | [width, color, style] =>
    return ⟨← required asFloat? width, ← optional Color.ofJson? color,
      ← defaulted .solid (asLooselyNamed? LineStyle.name LineStyle.all) style⟩
  | _ => none

/-- The JSON form of a value format. -/
def ValueFormat.toJson (f : ValueFormat) : Json :=
  .object [("formatType", .string f.formatType.name),
    ("decimalPlaces", (f.decimalPlaces.map fun n : Nat => Json.integer n).getD .null)]

/-- Read a value format. -/
def ValueFormat.ofJson? (j : Json) : Option ValueFormat := do
  match ← fields? ["formatType", "decimalPlaces"] j with
  | [formatType, decimalPlaces] =>
    return ⟨← defaulted .general (asLooselyNamed? FormatType.name FormatType.all) formatType,
      ← optional (asNat? (Nat.pow 2 32)) decimalPlaces⟩
  | _ => none

/-! ## Controls -/

/-- The fields of a content. -/
def BoxContent.fields : BoxContent → List (String × Json)
  | text t => [("text", .string t)]
  | field name format fallback =>
    [("fieldName", .string name), ("format", format.toJson), ("text", .string fallback)]
  | calculated formula format fallback =>
    [("formula", .string formula), ("format", format.toJson), ("text", .string fallback)]
  | image source => [("source", .string source)]
  | barcode symbology data => [("symbology", .string symbology), ("data", .string data)]
  | shape kind fill =>
    ("shape", .string kind.name) :: optionalField "fill" (fill.map Color.toJson)

/-- The names of the fields of a type of content. -/
def BoxContent.fieldNames? (typeName : String) : Option (List String) :=
  match typeName with
  | "text" => some ["text"]
  | "field" => some ["fieldName", "format", "text"]
  | "calculated" => some ["formula", "format", "text"]
  | "image" => some ["source"]
  | "barcode" => some ["symbology", "data"]
  | "shape" => some ["shape", "fill"]
  | _ => none

/-- The content of a type with the given fields. -/
def BoxContent.ofFields? (typeName : String) (fields : List (Option Json)) : Option BoxContent :=
  match typeName, fields with
  | "text", [t] => return .text (← required asString? t)
  | "field", [name, format, fallback] =>
    return .field (← required asString? name)
      (← defaulted .general ValueFormat.ofJson? format) (← defaulted "" asString? fallback)
  | "calculated", [formula, format, fallback] =>
    return .calculated (← required asString? formula)
      (← defaulted .general ValueFormat.ofJson? format) (← defaulted "" asString? fallback)
  | "image", [source] => return .image (← required asString? source)
  | "barcode", [symbology, data] =>
    return .barcode (← required asString? symbology) (← required asString? data)
  | "shape", [kind, fill] =>
    return .shape (← defaulted .rectangle (asLooselyNamed? ShapeKind.name ShapeKind.all) kind)
      (← optional Color.ofJson? fill)
  | _, _ => none

/-- The fields of a line. -/
def Line.fields (l : Line Float) : List (String × Json) :=
  [("x1", .float l.x1), ("y1", .float l.y1), ("x2", .float l.x2), ("y2", .float l.y2),
    ("strokeWidth", .float l.strokeWidth), ("lineStyle", .string l.style.name),
    ("color", l.color.toJson)]

/-- Read a line. -/
def Line.ofJson? (j : Json) : Option (Line Float) := do
  match ← fields? ["x1", "y1", "x2", "y2", "strokeWidth", "lineStyle", "color"] j with
  | [x1, y1, x2, y2, strokeWidth, style, color] =>
    return ⟨← required asFloat? x1, ← required asFloat? y1, ← required asFloat? x2,
      ← required asFloat? y2, ← required asFloat? strokeWidth,
      ← defaulted .solid (asLooselyNamed? LineStyle.name LineStyle.all) style,
      ← required Color.ofJson? color⟩
  | _ => none

/-- Read a box of a type. -/
def Body.boxOfJson? (typeName : String) (j : Json) : Option (Body Float) := do
  let names ← BoxContent.fieldNames? typeName
  match ← fields? ("frame" :: "border" :: names) j with
  | frame :: border :: rest =>
    return .box (← required Frame.ofJson? frame) (← defaulted .empty Border.ofJson? border)
      (← BoxContent.ofFields? typeName rest)
  | _ => none

/-- The JSON form of a box or a line. -/
def Body.toJson : Body Float → Json
  | box frame border content =>
    .object (("type", .string content.typeName) :: ("frame", frame.toJson) ::
      ("border", border.toJson) :: content.fields)
  | line l => .object (("type", .string "line") :: l.fields)

/-- The type of a kind and its other fields; in an array the type comes first. -/
def splitType : Json → Option (String × Json)
  | .object fields => do
    guard (fields.countP (·.1 == "type") == 1)
    let typeName ← (fields.lookup "type").bind asString?
    return (typeName, .object (fields.filter (·.1 != "type")))
  | .array (.string typeName :: items) => some (typeName, .array items)
  | _ => none

/-- The greatest number of containers that may be open around a value inside a kind. -/
def maxDepth : Nat := 127

/-- Read a box or a line that has `outer` containers around it. All of it must be readable, also
the fields that are passed over, and it must not be nested too deeply. -/
def Body.ofJson? (outer : Nat) (j : Json) : Option (Body Float) := do
  guard (j.isReadable && j.depth + outer ≤ maxDepth)
  let (typeName, rest) ← splitType j
  if typeName == "line" then return .line (← Line.ofJson? rest)
  else Body.boxOfJson? typeName rest

/-- The JSON form of a control. -/
def Control.toJson (c : Control Float) : Json :=
  .object [("id", .string c.id), ("zIndex", .integer c.zIndex),
    ("printVisible", .boolean c.printVisible), ("kind", c.body.toJson)]

/-- Read a control that has `outer` containers around it; it prints unless it says otherwise. -/
def Control.ofJson? (outer : Nat) (j : Json) : Option (Control Float) := do
  match ← fields? ["id", "zIndex", "printVisible", "kind"] j with
  | [id, zIndex, printVisible, kind] =>
    return ⟨← required asString? id, ← required (asInt? (-2147483648) 2147483647) zIndex,
      ← defaulted true asBool? printVisible, ← required (Body.ofJson? (outer + 1)) kind⟩
  | _ => none

/-! ## Bands and references -/

/-- The JSON form of a band. -/
def Band.toJson (b : Band Float) : Json :=
  .object ([("id", .string b.id), ("name", .string b.name), ("type", .string b.kind.name),
      ("top", .float b.top), ("bottom", .float b.bottom), ("actualBottom", .float b.actualBottom),
      ("objects", .array (b.objects.map Control.toJson))] ++
    optionalField "rowHeightFormula" (b.rowHeightFormula.map .string) ++
    optionalField "backgroundColorFormula" (b.backgroundColorFormula.map .string) ++
    optionalField "summaryDisplayMode" (b.summaryMode?.map fun m => .string m.name))

/-- Read a band that has `outer` containers around it. -/
def Band.ofJson? (outer : Nat) (j : Json) : Option (Band Float) := do
  match ← fields? ["id", "name", "type", "top", "bottom", "actualBottom", "objects",
      "rowHeightFormula", "backgroundColorFormula", "summaryDisplayMode"] j with
  | [id, name, kind, top, bottom, actualBottom, objects, rowHeight, background, mode] =>
    return {
      id := ← required asString? id
      name := ← required asString? name
      kind := ← required (asNamed? BandKind.name BandKind.all) kind
      top := ← required asFloat? top
      bottom := ← required asFloat? bottom
      actualBottom := ← required asFloat? actualBottom
      objects := ← defaulted [] (asList? (Control.ofJson? (outer + 2))) objects
      rowHeightFormula := ← optional asString? rowHeight
      backgroundColorFormula := ← optional asString? background
      summaryMode? := ← optional (asNamed? SummaryMode.name SummaryMode.all) mode }
  | _ => none

/-- Read a reference to a control. -/
def ObjectRef.ofJson? (j : Json) : Option ObjectRef := do
  match ← fields? ["bandId", "objectId"] j with
  | [bandId, objectId] => return ⟨← required asString? bandId, ← required asString? objectId⟩
  | _ => none

end BandedReport
