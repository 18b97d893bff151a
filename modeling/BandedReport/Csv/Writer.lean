import BandedReport.Csv.Fields
import BandedReport.Record

/-!
# Writing delimited text

Rows are written as the texts that their values are shown as. A field is put in quotes when it holds
a delimiter, a quote or a line break, and when it is empty and alone in its record, since a blank
line would be passed over.
-/

namespace BandedReport.Csv

/-- What ends a line. -/
inductive LineBreak where
  | crlf | lf | cr
deriving DecidableEq

/-- The characters of a line break. -/
def LineBreak.chars : LineBreak → List Char
  | crlf => ['\r', '\n']
  | lf => ['\n']
  | cr => ['\r']

/-- How rows are written. -/
structure WriteOptions where
  dialect : Dialect
  writeHeader : Bool
  /-- The columns in order; without them, all fields of the rows in the order they appear. -/
  columns : Option (List String)
  lineBreak : LineBreak

/-- Commas, double quotes, a header of all fields, and lines that end with both characters. -/
def WriteOptions.standard : WriteOptions := ⟨.standard, true, none, .crlf⟩

/-- Must a field with this character be put in quotes? -/
def Dialect.isSpecial (d : Dialect) (c : Char) : Bool :=
  c == d.delimiter || c == d.quote || c == '\n' || c == '\r'

/-- A field in quotes, the quotes in it doubled. -/
def Dialect.quoted (d : Dialect) (field : List Char) : List Char :=
  d.quote :: field.flatMap (fun c => if c == d.quote then [c, c] else [c]) ++ [d.quote]

/-- A field as it is written. -/
def Dialect.writeField (d : Dialect) (field : List Char) : List Char :=
  if field.any d.isSpecial then d.quoted field else field

/-- The fields of a record as they are written, without the end of the line. -/
def Dialect.writeFields (d : Dialect) (fields : List (List Char)) : List Char :=
  match fields with
  | [] | [[]] => d.quoted []
  | fields => [d.delimiter].intercalate (fields.map d.writeField)

/-- The fields of rows, in the order in which they first appear. -/
def collectColumns (rows : List Record) : List String := (rows.flatMap (·.names)).eraseDups

/-- The texts of a row; a field that it lacks is empty. -/
def rowTexts (columns : List String) (row : Record) : List (List Char) :=
  columns.map fun name => ((row.get? name).map (·.displayChars)).getD []

/-- Write rows. -/
def write (o : WriteOptions) (rows : List Record) : String :=
  let columns := o.columns.getD (collectColumns rows)
  let header := if o.writeHeader && !columns.isEmpty then [columns.map (·.toList)] else []
  let lines := header ++ rows.map (rowTexts columns)
  String.ofList (lines.flatMap fun fields => o.dialect.writeFields fields ++ o.lineBreak.chars)

end BandedReport.Csv
