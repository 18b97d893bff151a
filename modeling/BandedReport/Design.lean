import BandedReport.Calendar.Timestamp
import BandedReport.Canvas.Band

/-!
# Designs

A report design: its bands from top to bottom, and what is stored with them.
-/

namespace BandedReport

/-- Layout settings that are stored with a design. -/
structure DesignSettings (κ : Type) where
  /-- The gap that is kept between consecutive bands. -/
  bandSpacing : κ
  /-- The height on a page that detail rows may take. -/
  pageBodyHeight : Option κ
  /-- The number of detail rows on a page. -/
  rowsPerPage : Option Nat
deriving BEq

/-- A report design. -/
structure Design (κ : Type) where
  bands : List (Band κ)
  /-- The version of the stored form. -/
  version : String
  createdAt : Timestamp
  settings : DesignSettings κ
deriving BEq

/-- Why a part of a design was not found. -/
inductive DesignError where
  | bandOutOfBounds (index count : Nat)
  | objectNotFound (id : String)
deriving DecidableEq

/-- The wording of an error. -/
def DesignError.message : DesignError → String
  | bandOutOfBounds index count => s!"Band index {index} out of bounds (count: {count})"
  | objectNotFound id => s!"Object not found: {id}"

/-- No gap, and no limits on a page. -/
def DesignSettings.empty {κ : Type} [Coordinate κ] : DesignSettings κ :=
  ⟨Coordinate.ofNat 0, none, none⟩

namespace Design

variable {κ : Type} [Coordinate κ]

/-- A design of bands in the present version of the stored form. -/
def ofBands (bands : List (Band κ)) (createdAt : Timestamp) : Design κ :=
  ⟨bands, "1.0", createdAt, .empty⟩

/-- The band at an index. -/
def band (d : Design κ) (index : Nat) : Except DesignError (Band κ) :=
  match d.bands[index]? with
  | some band => .ok band
  | none => .error (.bandOutOfBounds index d.bands.length)

/-- The bands of a kind, from top to bottom. -/
def bandsOfKind (d : Design κ) (kind : BandKind) : List (Band κ) :=
  d.bands.filter (·.kind == kind)

/-- The control of an identifier and the index of its band: the first in the first band that has
one. -/
def findObject (d : Design κ) (id : String) : Except DesignError (Nat × Control κ) :=
  match d.bands.zipIdx.findSome? fun (band, i) => (band.object? id).map fun c => (i, c) with
  | some found => .ok found
  | none => .error (.objectNotFound id)

end Design

end BandedReport
