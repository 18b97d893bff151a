import BandedReport.Decimal.Rounding

/-!
# Amounts in Chinese capitals

Amounts of money in the capital numerals used on cheques: yuan, jiao and fen, for instance
壹仟贰佰叁拾肆元伍角陆分. The amount is rounded to the fen and its integer part may have sixteen
digits, written in groups of four.
-/

namespace BandedReport.Amount

/-- The capital numerals from zero to nine. -/
def chineseDigit : Nat → Char
  | 1 => '壹' | 2 => '贰' | 3 => '叁' | 4 => '肆' | 5 => '伍'
  | 6 => '陆' | 7 => '柒' | 8 => '捌' | 9 => '玖' | _ => '零'

/-- The units inside a group of four digits: none, ten, a hundred, a thousand. -/
def chineseUnit : Nat → List Char
  | 1 => ['拾'] | 2 => ['佰'] | 3 => ['仟'] | _ => []

/-- The units of the groups of four digits, from the lowest group up. -/
def chineseGroupUnit : Nat → List Char
  | 1 => ['万'] | 2 => ['亿'] | 3 => ['万', '亿'] | _ => []

/-- The digits of a group from position `places - 1` down to 0. `started` tells whether a digit
was written before, `gap` whether zeros were passed since. -/
def groupDigits (group : Nat) : (places : Nat) → (started gap : Bool) → List Char
  | 0, _, _ => []
  | place + 1, started, gap =>
    let digit := group / Nat.pow 10 place % 10
    if digit == 0 then groupDigits group place started started
    else
      (if gap then ['零'] else []) ++
        chineseDigit digit :: chineseUnit place ++ groupDigits group place true false

/-- A group of up to four digits. -/
def groupToChinese (group : Nat) : List Char := groupDigits group 4 false false

/-- The groups of an integer from number `groups - 1` down to 0. A zero is written where groups
or leading digits of a group are skipped. -/
def integerGroups (integer : Nat) : (groups : Nat) → (started gap : Bool) → List Char
  | 0, _, _ => []
  | index + 1, started, gap =>
    let group := integer / Nat.pow 10000 index % 10000
    if group == 0 then integerGroups integer index started started
    else
      (if started && (gap || group < 1000) then ['零'] else []) ++
        groupToChinese group ++ chineseGroupUnit index ++ integerGroups integer index true false

/-- An amount of fen below `10 ^ 18`, without its sign. -/
def fenToChinese (fen : Nat) : List Char :=
  let integer := fen / 100
  let jiao := fen / 10 % 10
  let last := fen % 10
  if fen == 0 then ['零', '元', '整']
  else
    let yuan := if integer == 0 then [] else integerGroups integer 4 false false ++ ['元']
    let tenths :=
      if jiao == 0 then (if integer == 0 || last == 0 then [] else ['零'])
      else [chineseDigit jiao, '角']
    let hundredths := if last == 0 then ['整'] else [chineseDigit last, '分']
    yuan ++ tenths ++ hundredths

/-- The magnitude of an amount in fen, rounded half away from zero on its decimal text; `none`
when the amount is no fixed-size decimal. -/
def fenOf? (x : Float) : Option Nat :=
  (Decimal.ofFloat? x.abs).map fun d =>
    let d := d.roundTo 2
    d.coefficient * Nat.pow 10 (d.exponent + 2).toNat

/-- The amount in capital numerals, `none` when its integer part exceeds sixteen digits. -/
def chineseChars? (x : Float) : Option (List Char) :=
  match fenOf? x with
  | none => none
  | some fen =>
    if Nat.pow 10 18 ≤ fen then none
    else if fen != 0 && x < 0 then some ('负' :: fenToChinese fen)
    else some (fenToChinese fen)

@[inherit_doc chineseChars?]
def chinese? (x : Float) : Option String := (chineseChars? x).map String.ofList

end BandedReport.Amount
