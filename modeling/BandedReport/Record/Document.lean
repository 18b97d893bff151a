import BandedReport.Json.Decode
import BandedReport.Json.Writer
import BandedReport.Record

/-!
# Values and records in JSON

A value is written as the JSON value it resembles, a date as text; reading gives every value but a
date. A record is an object.
-/

namespace BandedReport

/-- The JSON form of a value. -/
def Scalar.toJson : Scalar → Json
  | null => .null
  | boolean b => .boolean b
  | number x => .float x
  | text s => .string s
  | date d => .string (String.ofList d.isoChars)

/-- Read a value. -/
def Scalar.ofJson? : Json → Option Scalar
  | .null => some null
  | .boolean b => some (boolean b)
  | .integer n => some (number (Float.ofInt n))
  | .float x => some (number x)
  | .string s => some (text s)
  | .array _ | .object _ | .unreadable => none

/-- Read a record. -/
def Record.ofJson? : Json → Option Record
  | .object fields => (fields.mapM readField).map Record.ofList
  | _ => none
where
  /-- Read a field. -/
  readField (field : String × Json) : Option (String × Scalar) :=
    (Scalar.ofJson? field.2).map (field.1, ·)

/-- Read a list of records. -/
def Record.listOfJson? : Json → Option (List Record) := Json.asList? Record.ofJson?

end BandedReport
