import BandedReport.Json.Value
import BandedReport.Text.Hex

/-!
# Reading JSON

A reader for JSON text. Each step hands on the characters it has not read, with the proof that
there are fewer of them.
-/

namespace BandedReport.Json

/-- A result and the characters that remain, fewer than there were. -/
abbrev Step (α : Type) (chars : List Char) :=
  Option (α × { rest : List Char // rest.length < chars.length })

/-- The characters that remain when some may have been read. -/
abbrev Rest (chars : List Char) := { rest : List Char // rest.length ≤ chars.length }

/-- The four blanks of JSON. -/
def isSpace (c : Char) : Bool := c == ' ' || c == '\n' || c == '\t' || c == '\r'

/-- Skip blanks. -/
def skipSpace (chars : List Char) : List Char := chars.dropWhile isSpace

theorem length_skipSpace_le (chars : List Char) : (skipSpace chars).length ≤ chars.length :=
  (List.dropWhile_suffix _).length_le

theorem length_lt_cons (c : Char) (rest : List Char) : rest.length < (c :: rest).length :=
  Nat.lt_succ_self _

/-! ## Strings -/

/-- The number of four hexadecimal digits. -/
def hexUnit? (a b c d : Char) : Option Nat := do
  let a ← hexValue? a
  let b ← hexValue? b
  let c ← hexValue? c
  let d ← hexValue? d
  return 4096 * a + 256 * b + 16 * c + d

/-- The character of an escape of one letter. -/
def simpleEscape? : Char → Option Char
  | '"' => some '"'
  | '\\' => some '\\'
  | '/' => some '/'
  | 'b' => some '\x08'
  | 'f' => some '\x0c'
  | 'n' => some '\n'
  | 'r' => some '\r'
  | 't' => some '\t'
  | _ => none

/-- A unit of a string: a character, or one unit of the sixteen-bit form. -/
inductive StringUnit where
  | char (c : Char)
  | code (n : Nat)

/-- Read one unit of a string. -/
def readUnit (chars : List Char) : Step StringUnit chars :=
  match chars with
  | '\\' :: 'u' :: a :: b :: c :: d :: rest =>
    (hexUnit? a b c d).map fun n => (.code n, ⟨rest, Nat.lt_add_of_pos_right (Nat.succ_pos 5)⟩)
  | '\\' :: e :: rest =>
    (simpleEscape? e).map fun c => (.char c, ⟨rest, Nat.lt_add_of_pos_right (Nat.succ_pos 1)⟩)
  | c :: rest =>
    if c == '\\' || c.toNat < 0x20 then none else some (.char c, ⟨rest, length_lt_cons c rest⟩)
  | [] => none

/-- Read the units of a string up to its closing quote. -/
def readUnits (chars : List Char) : Step (List StringUnit) chars :=
  match chars with
  | [] => none
  | c :: rest =>
    if c == '"' then some ([], ⟨rest, length_lt_cons c rest⟩)
    else
      match readUnit (c :: rest) with
      | none => none
      | some (unit, ⟨rest', h⟩) =>
        match readUnits rest' with
        | some (units, ⟨rest'', h'⟩) => some (unit :: units, ⟨rest'', Nat.lt_trans h' h⟩)
        | none => none
termination_by chars.length
decreasing_by exact h

/-- Is the number the first unit of a surrogate pair? -/
def isHighSurrogate (n : Nat) : Bool := 0xD800 ≤ n && n < 0xDC00

/-- Is the number the second unit of a surrogate pair? -/
def isLowSurrogate (n : Nat) : Bool := 0xDC00 ≤ n && n < 0xE000

/-- The characters of units; `none` when a surrogate is not paired. -/
def joinUnits : List StringUnit → Option (List Char)
  | [] => some []
  | .char c :: rest => (joinUnits rest).map (c :: ·)
  | .code high :: .code low :: rest =>
    if isHighSurrogate high then
      if isLowSurrogate low then
        (joinUnits rest).map (Char.ofNat (0x10000 + (high - 0xD800) * 1024 + (low - 0xDC00)) :: ·)
      else none
    else if isLowSurrogate high then none
    else (joinUnits (.code low :: rest)).map (Char.ofNat high :: ·)
  | .code n :: rest =>
    if isHighSurrogate n || isLowSurrogate n then none
    else (joinUnits rest).map (Char.ofNat n :: ·)

/-- Read a string behind its opening quote; the inner result is `none` when the string denotes
nothing. -/
def readString (chars : List Char) : Step (Option String) chars :=
  (readUnits chars).map fun (units, rest) => ((joinUnits units).map String.ofList, rest)

/-! ## Numbers -/

/-- Read digits, at least one. -/
def readDigits (chars : List Char) : Step (List Char) chars :=
  match chars with
  | [] => none
  | c :: rest =>
    if c.isDigit then
      some (c :: rest.takeWhile Char.isDigit, ⟨rest.dropWhile Char.isDigit,
        Nat.lt_succ_of_le (List.dropWhile_suffix _).length_le⟩)
    else none

/-- Split a minus sign off. -/
def takeMinus (chars : List Char) : Bool × Rest chars :=
  match chars with
  | '-' :: rest => (true, ⟨rest, Nat.le_of_lt (length_lt_cons '-' rest)⟩)
  | chars => (false, ⟨chars, Nat.le_refl _⟩)

/-- Read the fraction of a number, if there is one. -/
def readFraction (chars : List Char) : Option (Option (List Char) × Rest chars) :=
  match chars with
  | '.' :: rest =>
    (readDigits rest).map fun (digits, ⟨more, h⟩) =>
      (some digits, ⟨more, Nat.le_of_lt (Nat.lt_trans h (length_lt_cons '.' rest))⟩)
  | chars => some (none, ⟨chars, Nat.le_refl _⟩)

/-- Read the exponent of a number, if there is one: its sign and its digits. -/
def readExponent (chars : List Char) : Option (Option (Bool × List Char) × Rest chars) :=
  match chars with
  | [] => some (none, ⟨[], Nat.le_refl _⟩)
  | c :: rest =>
    if c == 'e' || c == 'E' then
      (readDigits (takeSign rest).2).map fun (digits, ⟨more, h⟩) =>
        (some ((takeSign rest).1, digits), ⟨more, Nat.le_of_lt (Nat.lt_trans h
          (Nat.lt_of_le_of_lt (length_takeSign_le rest) (length_lt_cons c rest)))⟩)
    else some (none, ⟨c :: rest, Nat.le_refl _⟩)

/-- Read a number. Its integer part does not begin with a zero unless it is zero. -/
def readNumber (chars : List Char) : Step Number chars :=
  match takeMinus chars with
  | (negative, ⟨body, hbody⟩) =>
    match readDigits body with
    | none => none
    | some (whole, ⟨afterWhole, hwhole⟩) =>
      if whole.head? == some '0' && whole.length != 1 then none
      else
        match readFraction afterWhole with
        | none => none
        | some (fraction, ⟨afterFraction, hfraction⟩) =>
          (readExponent afterFraction).map fun (exponent, ⟨rest, hexponent⟩) =>
            (NumberText.value { negative, whole, fraction, exponent },
              ⟨rest, Nat.lt_of_le_of_lt (Nat.le_trans hexponent hfraction)
                (Nat.lt_of_lt_of_le hwhole hbody)⟩)

/-- The value of a number. -/
def ofNumber : Number → Json
  | .integer n => integer n
  | .float x => float x
  | .outOfRange => unreadable

/-- Read the rest of a word behind its first character. -/
def readWord (tail : List Char) (value : Json) (c : Char) (rest : List Char) :
    Step Json (c :: rest) :=
  if tail.isPrefixOf rest then
    some (value, ⟨rest.drop tail.length, Nat.lt_succ_of_le (List.drop_suffix _ _).length_le⟩)
  else none

/-! ## Values -/

/-- The object of fields; when the name of one denotes nothing, the object denotes nothing. -/
def objectOf (fields : List (Option String × Json)) : Json :=
  if fields.all (·.1.isSome) then object (fields.map fun (k, j) => (k.getD "", j)) else unreadable

/-- Read a character, blanks in front of it skipped. -/
def nextChar (chars : List Char) : Step Char chars :=
  match h : skipSpace chars with
  | [] => none
  | c :: rest =>
    some (c, ⟨rest, by
      have hle := length_skipSpace_le chars
      rw [h] at hle
      exact hle⟩)

/-- Read a number or a word that begins with a character. -/
def readScalar (c : Char) (rest : List Char) : Step Json (c :: rest) :=
  match c with
  | 'n' => readWord "ull".toList null c rest
  | 't' => readWord "rue".toList (boolean true) c rest
  | 'f' => readWord "alse".toList (boolean false) c rest
  | c => (readNumber (c :: rest)).map fun (number, more) => (ofNumber number, more)

/-- Read the character that ends a container. -/
def readEnd (last : Char) (chars : List Char) :
    Option { rest : List Char // rest.length < chars.length } :=
  match nextChar chars with
  | none => none
  | some (c, rest) => if c == last then some rest else none

/-- The place where an item begins: at once if it is the first one, else behind a comma. -/
def itemStart (isFirst : Bool) (chars : List Char) : Option (Rest chars) :=
  if isFirst then some ⟨chars, Nat.le_refl _⟩
  else
    match nextChar chars with
    | none => none
    | some (c, ⟨rest, h⟩) => if c == ',' then some ⟨rest, Nat.le_of_lt h⟩ else none

/-- Read the name of a field and the colon behind it. -/
def readKey (chars : List Char) : Step (Option String) chars :=
  match nextChar chars with
  | none => none
  | some (c, ⟨rest, h⟩) =>
    if c == '"' then
      match readString rest with
      | none => none
      | some (key, ⟨afterKey, hkey⟩) =>
        match nextChar afterKey with
        | none => none
        | some (colon, ⟨more, hmore⟩) =>
          if colon == ':' then some (key, ⟨more, Nat.lt_trans hmore (Nat.lt_trans hkey h)⟩)
          else none
    else none

private theorem lex_of_le {a b : Nat} (h : a ≤ b) :
    Prod.Lex (fun m n : Nat => m < n) (fun m n : Nat => m < n) (a, 0) (b, 1) := by
  rcases Nat.lt_or_eq_of_le h with h | h
  · exact .left _ _ h
  · subst h
    exact .right _ Nat.zero_lt_one

mutual

/-- Read a value, blanks in front of it skipped. -/
def readValue (chars : List Char) : Step Json chars :=
  match nextChar chars with
  | none => none
  | some (c, ⟨rest, hrest⟩) =>
    if c == '"' then
      match readString rest with
      | none => none
      | some (s, ⟨more, h⟩) =>
        some ((s.map string).getD unreadable, ⟨more, Nat.lt_trans h hrest⟩)
    else if c == '[' then
      match readItems true rest with
      | none => none
      | some (items, ⟨more, h⟩) => some (array items, ⟨more, Nat.lt_trans h hrest⟩)
    else if c == '\x7b' then
      match readFields true rest with
      | none => none
      | some (fields, ⟨more, h⟩) => some (objectOf fields, ⟨more, Nat.lt_trans h hrest⟩)
    else
      match readScalar c rest with
      | none => none
      | some (j, ⟨more, h⟩) =>
        some (j, ⟨more, Nat.lt_of_le_of_lt (Nat.le_of_lt_succ h) hrest⟩)
termination_by (chars.length, 0)
decreasing_by
  · exact .left _ _ hrest
  · exact .left _ _ hrest

/-- Read items up to the end of an array; before the first one the end may come at once, before
another one a comma stands. -/
def readItems (isFirst : Bool) (chars : List Char) : Step (List Json) chars :=
  match readEnd ']' chars with
  | some rest => some ([], rest)
  | none =>
    match itemStart isFirst chars with
    | none => none
    | some ⟨start, hstart⟩ =>
      match readValue start with
      | none => none
      | some (j, ⟨more, hmore⟩) =>
        match readItems false more with
        | none => none
        | some (js, ⟨rest, h⟩) =>
          some (j :: js, ⟨rest, Nat.lt_trans h (Nat.lt_of_lt_of_le hmore hstart)⟩)
termination_by (chars.length, 1)
decreasing_by
  · exact lex_of_le hstart
  · exact .left _ _ (Nat.lt_of_lt_of_le hmore hstart)

/-- Read fields up to the end of an object. -/
def readFields (isFirst : Bool) (chars : List Char) :
    Step (List (Option String × Json)) chars :=
  match readEnd '\x7d' chars with
  | some rest => some ([], rest)
  | none =>
    match itemStart isFirst chars with
    | none => none
    | some ⟨start, hstart⟩ =>
      match readKey start with
      | none => none
      | some (key, ⟨valueChars, hkey⟩) =>
        match readValue valueChars with
        | none => none
        | some (j, ⟨more, hmore⟩) =>
          match readFields false more with
          | none => none
          | some (js, ⟨rest, h⟩) =>
            some ((key, j) :: js,
              ⟨rest, Nat.lt_trans h (Nat.lt_trans hmore (Nat.lt_of_lt_of_le hkey hstart))⟩)
termination_by (chars.length, 1)
decreasing_by
  · exact .left _ _ (Nat.lt_of_lt_of_le hkey hstart)
  · exact .left _ _ (Nat.lt_trans hmore (Nat.lt_of_lt_of_le hkey hstart))

end

/-- Read a text that is one value. -/
def ofChars? (chars : List Char) : Option Json :=
  match readValue chars with
  | some (j, ⟨rest, _⟩) => if (skipSpace rest).isEmpty then some j else none
  | none => none

/-- Read a text that is one value. -/
def ofText? (text : String) : Option Json := ofChars? text.toList

end BandedReport.Json
