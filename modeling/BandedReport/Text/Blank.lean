/-!
# White space

The characters that count as blank in formulas, numbers and tables, and the removal of blanks
around a text.
-/

namespace BandedReport

/-- Is the character white space in the sense of Unicode? -/
def isBlank (c : Char) : Bool :=
  let n := c.toNat
  (0x9 ≤ n && n ≤ 0xD) || n == 0x20 || n == 0x85 || n == 0xA0 || n == 0x1680 ||
    (0x2000 ≤ n && n ≤ 0x200A) || n == 0x2028 || n == 0x2029 || n == 0x202F || n == 0x205F ||
    n == 0x3000

/-- Remove blanks in front. -/
def trimStart (chars : List Char) : List Char := chars.dropWhile isBlank

/-- Remove blanks behind. -/
def trimEnd (chars : List Char) : List Char := (chars.reverse.dropWhile isBlank).reverse

/-- Remove blanks around a text. -/
def trimChars (chars : List Char) : List Char := trimEnd (trimStart chars)

/-- Remove blanks around a string. -/
def trimText (text : String) : String := String.ofList (trimChars text.toList)

end BandedReport
