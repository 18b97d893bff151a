/-!
# Fields of delimited text

A text is split into records and records into fields. A line break ends a record, empty lines are
passed over, a delimiter ends a field. A field that begins with a quote runs to the next single
quote and may hold delimiters and line breaks; a quote in it is written twice. What follows the
closing quote belongs to the field, and a quote elsewhere is text.

The rules are stated for characters and for the bytes of an encoded text alike, because a text that
is not properly encoded is split before its encoding is looked at.
-/

namespace BandedReport.Csv

/-- The characters that divide a text. -/
structure Dialect where
  delimiter : Char
  quote : Char
deriving DecidableEq

/-- Commas and double quotes. -/
def Dialect.standard : Dialect := ⟨',', '"'⟩

/-- The units of a text. -/
structure Alphabet (α : Type) where
  /-- The unit of an ASCII character. -/
  ofChar : Char → α
  /-- The mark that may stand in front of a text. -/
  byteOrderMark : List α
  /-- The text of some units, if they are one. -/
  decode? : List α → Option String

/-- Texts of characters. -/
def Alphabet.chars : Alphabet Char := ⟨id, ['\ufeff'], fun cs => some (String.ofList cs)⟩

/-- Texts of bytes. -/
def Alphabet.bytes : Alphabet UInt8 :=
  ⟨fun c => c.toNat.toUInt8, [0xEF, 0xBB, 0xBF], fun bs => String.fromUTF8? ⟨bs.toArray⟩⟩

/-- Where a splitter is in a text. -/
inductive Place where
  | recordStart
  | fieldStart
  /-- In a field, outside quotes. -/
  | plain
  | quoted
  /-- After a quote inside quotes. -/
  | quoteInQuoted
deriving DecidableEq

/-- What a splitter does with a unit. -/
inductive Action where
  /-- Leave the unit out and go to another place. -/
  | skip (next : Place)
  /-- Add the unit to the field and go to another place. -/
  | copy (next : Place)
  | endField
  | endRecord

variable {α : Type} [BEq α]

/-- Is the unit a line break? -/
def Alphabet.isBreak (A : Alphabet α) (c : α) : Bool := c == A.ofChar '\n' || c == A.ofChar '\r'

/-- The action on a unit outside quotes. -/
def plainAction (A : Alphabet α) (d : Dialect) (c : α) : Action :=
  if c == A.ofChar d.delimiter then .endField
  else if A.isBreak c then .endRecord
  else .copy .plain

/-- The action on the first unit of a field. -/
def firstAction (A : Alphabet α) (d : Dialect) (c : α) : Action :=
  if c == A.ofChar d.quote then .skip .quoted else plainAction A d c

/-- The action on a unit at a place. -/
def action (A : Alphabet α) (d : Dialect) (place : Place) (c : α) : Action :=
  match place with
  | .recordStart => if A.isBreak c then .skip .recordStart else firstAction A d c
  | .fieldStart => firstAction A d c
  | .plain => plainAction A d c
  | .quoted => if c == A.ofChar d.quote then .skip .quoteInQuoted else .copy .quoted
  | .quoteInQuoted => if c == A.ofChar d.quote then .copy .quoted else plainAction A d c

/-- Split a text. `field` holds the units of the present field and `fields` the fields before it,
both in reverse. -/
def split (A : Alphabet α) (d : Dialect) (place : Place) (field : List α) (fields : List (List α)) :
    List α → List (List (List α))
  | [] =>
    match place with
    | .recordStart => []
    | _ => [(field.reverse :: fields).reverse]
  | c :: rest =>
    match action A d place c with
    | .skip next => split A d next field fields rest
    | .copy next => split A d next (c :: field) fields rest
    | .endField => split A d .fieldStart [] (field.reverse :: fields) rest
    | .endRecord =>
      (field.reverse :: fields).reverse :: split A d .recordStart [] [] rest

/-- The text without a byte order mark in front of it. -/
def dropMark (A : Alphabet α) (text : List α) : List α :=
  if A.byteOrderMark.isPrefixOf text then text.drop A.byteOrderMark.length else text

/-- The records of a text. -/
def records (A : Alphabet α) (d : Dialect) (text : List α) : List (List (List α)) :=
  split A d .recordStart [] [] (dropMark A text)

end BandedReport.Csv
