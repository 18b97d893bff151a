import BandedReport.Canvas.Document
import BandedReport.Json.Writer
import BandedReport.Print.Report

/-!
# Reports in JSON
-/

namespace BandedReport

open Json (optionalField)

/-- The JSON form of a tally. -/
def Tally.toJson (t : Tally) : Json :=
  .object [("pages", .integer t.pages), ("bandsRendered", .integer t.bands),
    ("objectsRendered", .integer t.objects), ("formulasEvaluated", .integer t.formulas),
    ("missingFields", .integer t.missingFields), ("errors", .integer t.errors),
    ("hiddenObjects", .integer t.hidden)]

/-- The JSON form of a degradation. -/
def Degradation.toJson : Degradation → Json
  | missingField name => .object [("kind", .string "missingField"), ("detail", .string name)]
  | error e => .object [("kind", .string "error"), ("detail", .string e.message)]

/-- The JSON form of a rectangle. -/
def Rect.toJson (r : Rect Float) : Json :=
  .object [("x", .float r.x), ("y", .float r.y), ("width", .float r.width),
    ("height", .float r.height)]

/-- The JSON form of a printed control. -/
def PrintedObject.toJson (o : PrintedObject Float) : Json :=
  .object ([("id", .string o.id), ("type", .string o.typeName), ("zIndex", .integer o.zIndex),
      ("bounds", o.bounds.toJson), ("text", .string o.text)] ++
    optionalField "degraded" (o.degraded.map (·.toJson)))

/-- The JSON form of a printed band. -/
def PrintedBand.toJson (b : PrintedBand Float) : Json :=
  .object ([("bandId", .string b.bandId), ("name", .string b.name),
      ("type", .string b.kind.name)] ++
    optionalField "rowIndex" (b.rowIndex.map fun i => Json.integer i) ++
    [("height", .float b.height)] ++
    optionalField "background" (b.background.map (·.toJson)) ++
    [("objects", .array (b.objects.map (·.toJson)))])

/-- The JSON form of a printed page. -/
def PrintedPage.toJson (p : PrintedPage Float) : Json :=
  .object [("number", .integer p.number),
    ("rows", .object [("start", .integer p.rows.start), ("end", .integer p.rows.stop)]),
    ("bands", .array (p.bands.map (·.toJson)))]

/-- The JSON form of a report. -/
def Report.toJson (r : Report Float) : Json :=
  .object [("pages", .array (r.pages.map (·.toJson))), ("stats", r.tally.toJson)]

end BandedReport
