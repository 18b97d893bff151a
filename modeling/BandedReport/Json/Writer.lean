import BandedReport.Json.Value

/-!
# Writing JSON

`Json.compact` writes without blanks, `Json.pretty` with one item a line and two blanks of
indentation a level. In strings only quotes, backslashes and control characters are escaped.
-/

namespace BandedReport.Json

/-- The escape of a character inside a string. -/
def escapeChar (c : Char) : List Char :=
  match c with
  | '"' => ['\\', '"']
  | '\\' => ['\\', '\\']
  | '\x08' => ['\\', 'b']
  | '\x0c' => ['\\', 'f']
  | '\n' => ['\\', 'n']
  | '\r' => ['\\', 'r']
  | '\t' => ['\\', 't']
  | c =>
    if c.toNat < 0x20 then
      ['\\', 'u', '0', '0', Nat.digitChar (c.toNat / 16), Nat.digitChar (c.toNat % 16)]
    else [c]

/-- A string with its quotes. -/
def quote (s : String) : List Char := '"' :: s.toList.flatMap escapeChar ++ ['"']

/-- A line break and the blanks before an item at a level. -/
def newline (level : Nat) : List Char := '\n' :: List.replicate (2 * level) ' '

/-- Write a value without blanks, in front of `rest`. -/
def writeCompact (j : Json) (rest : List Char) : List Char :=
  match j with
  | null | unreadable => 'n' :: 'u' :: 'l' :: 'l' :: rest
  | boolean b => (if b then "true".toList else "false".toList) ++ rest
  | integer n => intChars n ++ rest
  | float x => floatChars x ++ rest
  | string s => quote s ++ rest
  | array [] => '[' :: ']' :: rest
  | array (j :: js) => '[' :: writeCompact j (writeItems js rest)
  | object [] => '\x7b' :: '\x7d' :: rest
  | object ((k, j) :: js) => '\x7b' :: quote k ++ ':' :: writeCompact j (writeFields js rest)
where
  /-- Write the items that follow one, and the end of the array. -/
  writeItems (items : List Json) (rest : List Char) : List Char :=
    match items with
    | [] => ']' :: rest
    | j :: js => ',' :: writeCompact j (writeItems js rest)
  /-- Write the fields that follow one, and the end of the object. -/
  writeFields (fields : List (String × Json)) (rest : List Char) : List Char :=
    match fields with
    | [] => '\x7d' :: rest
    | (k, j) :: js => ',' :: quote k ++ ':' :: writeCompact j (writeFields js rest)

/-- The text of a value without blanks. -/
def compact (j : Json) : String := String.ofList (j.writeCompact [])

/-- Write a value that stands at a level of indentation, in front of `rest`. -/
def writePretty (j : Json) (level : Nat) (rest : List Char) : List Char :=
  match j with
  | array (j :: js) =>
    '[' :: newline (level + 1) ++ writePretty j (level + 1) (prettyItems js level rest)
  | object ((k, j) :: js) =>
    '\x7b' :: newline (level + 1) ++ quote k ++ ':' :: ' ' ::
      writePretty j (level + 1) (prettyFields js level rest)
  | j => j.writeCompact rest
where
  /-- Write the items that follow one, and the end of the array. -/
  prettyItems (items : List Json) (level : Nat) (rest : List Char) : List Char :=
    match items with
    | [] => newline level ++ ']' :: rest
    | j :: js => ',' :: newline (level + 1) ++ writePretty j (level + 1) (prettyItems js level rest)
  /-- Write the fields that follow one, and the end of the object. -/
  prettyFields (fields : List (String × Json)) (level : Nat) (rest : List Char) : List Char :=
    match fields with
    | [] => newline level ++ '\x7d' :: rest
    | (k, j) :: js =>
      ',' :: newline (level + 1) ++ quote k ++ ':' :: ' ' ::
        writePretty j (level + 1) (prettyFields js level rest)

/-- The text of a value with one item a line. -/
def pretty (j : Json) : String := String.ofList (j.writePretty 0 [])

end BandedReport.Json
