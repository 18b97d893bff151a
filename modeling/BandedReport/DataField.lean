/-!
# Declared fields

The data fields that a report may use, as declared by whoever supplies the data.
-/

namespace BandedReport

/-- Where a data field comes from. -/
inductive FieldSource where
  /-- The record that a report is about. -/
  | master
  /-- The rows that are repeated. -/
  | detail
deriving DecidableEq

/-- A declared data field. -/
structure DataField where
  /-- The name used in formulas. -/
  name : String
  /-- The name shown to people. -/
  label : String
  source : FieldSource
deriving DecidableEq

/-- A field that is labelled with its name. -/
def DataField.ofName (source : FieldSource) (name : String) : DataField := ⟨name, name, source⟩

end BandedReport
