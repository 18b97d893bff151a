import BandedReport.Csv.Fields
import BandedReport.Record

/-!
# Reading delimited text

The rows of a delimited text. The first record names the columns; without a header they are named
`column1`, `column2` and so on, as many as any row so far has. A row shorter than the columns leaves
the rest null, a row longer than the header is an error.
-/

namespace BandedReport.Csv

/-- How a text is read. -/
structure ReadOptions where
  dialect : Dialect
  hasHeader : Bool
  /-- Whether values are read as null, booleans and numbers where they look like them. -/
  detectTypes : Bool

/-- Commas, double quotes, a header, and types. -/
def ReadOptions.standard : ReadOptions := ⟨.standard, true, true⟩

/-- Why a text cannot be read. -/
inductive Error where
  /-- A field is not text in UTF-8. -/
  | notText
  | tooManyFields (row fields columns : Nat)
deriving DecidableEq

/-- The wording of an error. -/
def Error.message : Error → String
  | notText => "CSV error: a field is not valid UTF-8"
  | tooManyFields row fields columns =>
    let column := columns + 1
    s!"Parse error at row {row}, column {column}: {fields} fields but the header has {columns}"

/-- Do two lists agree but for the case of ASCII letters? -/
private def sameWord (a b : List Char) : Bool := asciiLower a == asciiLower b

/-- The value that a field looks like: nothing, a boolean, a finite number, or else the text
without the blanks around it. -/
def detect (field : String) : Scalar :=
  let chars := trimChars field.toList
  if chars.isEmpty then .null
  else if sameWord chars "true".toList then .boolean true
  else if sameWord chars "false".toList then .boolean false
  else
    match (readNumberChars chars).filter Float.isFinite with
    | some x => .number x
    | none => .text (String.ofList chars)

/-- The value of a field. -/
def ReadOptions.value (o : ReadOptions) (field : String) : Scalar :=
  if o.detectTypes then detect field else .text field

/-- The record of a row; columns beyond its end are null. -/
def ReadOptions.row (o : ReadOptions) (columns fields : List String) : Record :=
  Record.ofList (columns.zip (fields.map o.value ++ List.replicate columns.length .null))

/-- The names of the first columns of a text without a header. -/
def columnNames (count : Nat) : List String :=
  (List.range count).map fun i => "column" ++ String.ofList (digitsOf (i + 1))

variable {α : Type}

/-- The texts of the fields of a record. -/
def decodeFields (A : Alphabet α) (record : List (List α)) : Except Error (List String) :=
  match record.mapM A.decode? with
  | some fields => .ok fields
  | none => .error .notText

/-- The rows below a header, the first of them being number `row`. -/
def rowsBelow (A : Alphabet α) (o : ReadOptions) (columns : List String) (row : Nat) :
    List (List (List α)) → Except Error (List Record)
  | [] => .ok []
  | record :: rest => do
    let fields ← decodeFields A record
    if columns.length < fields.length then
      .error (.tooManyFields row fields.length columns.length)
    let more ← rowsBelow A o columns (row + 1) rest
    return o.row columns fields :: more

/-- The rows of a text without a header, of which `width` columns are known so far. -/
def rowsUnnamed (A : Alphabet α) (o : ReadOptions) (width : Nat) :
    List (List (List α)) → Except Error (List Record)
  | [] => .ok []
  | record :: rest => do
    let fields ← decodeFields A record
    let width := max width fields.length
    let more ← rowsUnnamed A o width rest
    return o.row (columnNames width) fields :: more

/-- Read the rows of a text. -/
def read [BEq α] (A : Alphabet α) (o : ReadOptions) (text : List α) : Except Error (List Record) :=
  let all := records A o.dialect text
  if o.hasHeader then
    match all with
    | [] => .ok []
    | header :: rest => do
      let names ← decodeFields A header
      rowsBelow A o (names.map fun n => String.ofList (trimChars n.toList)) 1 rest
  else rowsUnnamed A o 0 all

end BandedReport.Csv
