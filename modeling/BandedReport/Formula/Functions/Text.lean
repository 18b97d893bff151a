import BandedReport.Formula.Functions.Argument
import BandedReport.Text.LetterCase

/-!
# Text functions

Parts of texts, case and replacement. Lengths and offsets count characters.
-/

namespace BandedReport.Formula.Text

/-- A text value. -/
def textOf (chars : List Char) : Scalar := .text (String.ofList chars)

/-- A count brought into the range from zero to a length. -/
def clampCount (n : Int) (length : Nat) : Nat := min n.toNat length

/-- All arguments, one after the other. -/
def concat (args : List Scalar) : Outcome :=
  .ok (textOf (args.flatMap Scalar.displayChars))

/-- The first characters. -/
def left (args : List Scalar) : Outcome := do
  let chars := charsArgument args 0
  let n ← integerArgument "LEFT" args 1
  return textOf (chars.take (clampCount n chars.length))

/-- The last characters. -/
def right (args : List Scalar) : Outcome := do
  let chars := charsArgument args 0
  let n ← integerArgument "RIGHT" args 1
  return textOf (chars.drop (chars.length - clampCount n chars.length))

/-- Characters from a start that is counted from one. -/
def mid (args : List Scalar) : Outcome := do
  let chars := charsArgument args 0
  let start ← integerArgument "MID" args 1
  let n ← integerArgument "MID" args 2
  let tail := chars.drop (clampCount (start - 1) chars.length)
  return textOf (tail.take (clampCount n tail.length))

/-- The number of characters. -/
def length (args : List Scalar) : Outcome := .ok (.ofNat (charsArgument args 0).length)

/-- Replace every occurrence of a text that is not empty, from left to right. -/
def replaceAll (search replacement : List Char) (hsearch : search ≠ []) (chars : List Char) :
    List Char :=
  match chars with
  | [] => []
  | c :: rest =>
    if search.isPrefixOf (c :: rest) then
      replacement ++ replaceAll search replacement hsearch ((c :: rest).drop search.length)
    else c :: replaceAll search replacement hsearch rest
termination_by chars.length
decreasing_by
  · have := List.length_pos_iff.mpr hsearch
    simp only [List.length_drop, List.length_cons]
    omega
  · simp

/-- Replace every occurrence of a text; an empty text has none. -/
def replace (args : List Scalar) : Outcome :=
  let chars := charsArgument args 0
  let search := charsArgument args 1
  if h : search = [] then .ok (textOf chars)
  else .ok (textOf (replaceAll search (charsArgument args 2) h chars))

/-- A function of one text. -/
def mapped (f : List Char → List Char) (args : List Scalar) : Outcome :=
  .ok (textOf (f (charsArgument args 0)))

/-- The text functions. -/
def functions : List FunctionDef :=
  let define (name : String) (arity : Arity) (description : String)
      (run : List Scalar → Outcome) : FunctionDef :=
    { name, arity, category := .text, description, body := .eager fun args _ => run args }
  [define "CONCAT" (.atLeast 1) "Join all arguments as text" concat,
   define "LEFT" (.exactly 2) "First n characters" left,
   define "RIGHT" (.exactly 2) "Last n characters" right,
   define "MID" (.exactly 3) "Substring from a 1-based start" mid,
   define "LEN" (.exactly 1) "Number of characters" length,
   define "TRIM" (.exactly 1) "Strip surrounding whitespace" (mapped trimChars),
   define "UPPER" (.exactly 1) "Convert to upper case" (mapped LetterCase.upper),
   define "LOWER" (.exactly 1) "Convert to lower case" (mapped LetterCase.lower),
   define "REPLACE" (.exactly 3) "Replace every occurrence of a substring" replace]

end BandedReport.Formula.Text
