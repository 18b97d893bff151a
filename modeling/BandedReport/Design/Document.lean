import BandedReport.Canvas.Document
import BandedReport.Design
import BandedReport.Json.Reader
import BandedReport.Json.Writer

/-!
# Design documents

The stored form of a design: JSON with one item a line. Reading accepts what writing produces, and
fields that are absent but have a default, in any order and among unknown ones.
-/

namespace BandedReport

open Json (required defaulted optional asFloat? asString? asNat? asList? fields? optionalField)

/-- The JSON form of settings. -/
def DesignSettings.toJson (s : DesignSettings Float) : Json :=
  .object (("bandSpacing", .float s.bandSpacing) ::
    optionalField "pageBodyHeight" (s.pageBodyHeight.map .float) ++
    optionalField "rowsPerPage" (s.rowsPerPage.map fun n : Nat => Json.integer n))

/-- Read settings. -/
def DesignSettings.ofJson? (j : Json) : Option (DesignSettings Float) := do
  match ← fields? ["bandSpacing", "pageBodyHeight", "rowsPerPage"] j with
  | [bandSpacing, pageBodyHeight, rowsPerPage] =>
    return ⟨← defaulted 0.0 asFloat? bandSpacing, ← optional asFloat? pageBodyHeight,
      ← optional (asNat? (Nat.pow 2 64)) rowsPerPage⟩
  | _ => none

/-- Read an instant. -/
def Timestamp.ofJson? (j : Json) : Option Timestamp := (asString? j).bind Timestamp.read?

namespace Design

/-- The JSON form of a design. -/
def toJson (d : Design Float) : Json :=
  .object [("bands", .array (d.bands.map Band.toJson)), ("version", .string d.version),
    ("createdAt", .string d.createdAt.toText), ("settings", d.settings.toJson)]

/-- Read a design. -/
def ofJson? (j : Json) : Option (Design Float) := do
  match ← fields? ["bands", "version", "createdAt", "settings"] j with
  | [bands, version, createdAt, settings] =>
    return ⟨← required (asList? (Band.ofJson? 2)) bands, ← required asString? version,
      ← required Timestamp.ofJson? createdAt,
      ← defaulted .empty DesignSettings.ofJson? settings⟩
  | _ => none

/-- The text of a design. -/
def toText (d : Design Float) : String := d.toJson.pretty

/-- Read the text of a design. -/
def ofText? (text : String) : Option (Design Float) := (Json.ofText? text).bind ofJson?

end Design

end BandedReport
