import BandedReport.Csv.Reader
import BandedReport.Csv.Writer
import BandedReport.Design.Document
import BandedReport.Record.Document
import BandedReport.Text.LetterCase

/-!
# Files of data

What the contents of files mean: rows of data as JSON or as delimited text, told apart by the
extension of the file, a master record as JSON, and a design as JSON.
-/

namespace BandedReport

/-- The bytes of a file, if the file exists. -/
abbrev FileContent := Option ByteArray

/-- Why rows cannot be read from a file of delimited text. -/
inductive TableError where
  /-- The file cannot be read. -/
  | unreadable
  | malformed (cause : Csv.Error)
deriving DecidableEq

/-- The wording of an error. -/
def TableError.message : TableError → String
  | unreadable => "IO error: the file cannot be read"
  | malformed cause => cause.message

/-- Why a file cannot be used. -/
inductive FileError where
  /-- The file cannot be read, or is not text. -/
  | unreadable
  /-- The file is not JSON of the right form. -/
  | notJson
  | unsupported (path : String)
  | table (cause : TableError)
deriving DecidableEq

/-- The wording of an error. -/
def FileError.message : FileError → String
  | unreadable => "IO error: the file cannot be read"
  | notJson => "Invalid design document"
  | unsupported path => "Unsupported file format: " ++ path
  | table cause => cause.message

namespace DataFile

/-- The text behind the last point of a file name, in small letters. A point at the very beginning
does not count. -/
def extension? (path : String) : Option String :=
  let trimmed := path.toList.reverse.dropWhile (· == '/')
  let name := (trimmed.takeWhile (· != '/')).reverse
  let ending := (name.reverse.takeWhile (· != '.')).reverse
  if name.length ≤ ending.length + 1 then none
  else some (String.ofList (LetterCase.lower ending))

/-- Read JSON. -/
def readJson {α : Type} (decode : Json → Option α) (content : FileContent) :
    Except FileError α :=
  match content.bind fun bytes => String.fromUTF8? bytes with
  | none => .error .unreadable
  | some text =>
    match (Json.ofText? text).bind decode with
    | some a => .ok a
    | none => .error .notJson

/-- Read rows from delimited text. -/
def readTable (content : FileContent) : Except TableError (List Record) :=
  match content with
  | none => .error .unreadable
  | some bytes =>
    match Csv.read .bytes .standard bytes.toList with
    | .ok rows => .ok rows
    | .error e => .error (.malformed e)

/-- Read rows from a file. -/
def readRows (path : String) (content : FileContent) : Except FileError (List Record) :=
  match extension? path with
  | some "json" => readJson Record.listOfJson? content
  | some "csv" =>
    match readTable content with
    | .ok rows => .ok rows
    | .error e => .error (.table e)
  | _ => .error (.unsupported path)

/-- Read a master record. -/
def readRecord (content : FileContent) : Except FileError Record :=
  readJson Record.ofJson? content

/-- Read a design. -/
def readDesign (content : FileContent) : Except FileError (Design Float) :=
  readJson Design.ofJson? content

end DataFile

end BandedReport
