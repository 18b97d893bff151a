import BandedReport.Amount.Chinese
import BandedReport.Proofs.Decimal.Shortest
import BandedReport.Proofs.Decimal.Sign

/-!
# Amounts in Chinese capitals can be read back

The capitals of an amount are written by two procedures that leave out zeros, one inside a group of
four digits and one between the groups, and by rules of their own for jiao and fen. What is written
is read here by the positional rules, which know nothing of zeros that were left out; reading gives
back the amount of fen that was written.

* `magnitudeInFen` is the rounded amount, as a fraction rounded to the nearest fen;
* `Tally.read` reads capitals by the positional rules, `readAmount` with the sign;
* `ZerosLead` says that every zero stands in front of another digit;
* `chinese_readBack` is the result.
-/

namespace BandedReport

/-! ## §1 Rounding to the fen -/

namespace Decimal

variable {d : Decimal}

/-- A decimal with many places and few digits is far below half a fen. -/
theorem floor_eq_zero (hcoefficient : d.coefficient ≤ 10 ^ 20 + 1) (hexponent : d.exponent ≤ -28) :
    ⌊d.size * 10 ^ 2 + 1 / 2⌋₊ = 0 := by
  have hsize := size_le hcoefficient hexponent
  rw [Nat.floor_eq_zero]
  norm_num at hsize ⊢
  linarith

/-- To round to the places of a fixed-size decimal first changes nothing. -/
theorem floor_roundTo_maxPlaces (hd : d.coefficient ≤ 10 ^ 20) :
    ⌊(d.roundTo maxPlaces).size * 10 ^ 2 + 1 / 2⌋₊ = ⌊d.size * 10 ^ 2 + 1 / 2⌋₊ := by
  by_cases hplaces : d.places ≤ maxPlaces
  · rw [roundTo, if_pos hplaces]
  · have hexponent : d.exponent ≤ -28 := by
      rw [places, maxPlaces] at hplaces
      omega
    -- Rounded to those places or not, the decimal is too small for a fen.
    have hrounded : (d.roundTo maxPlaces).exponent ≤ -28 := by
      rw [roundTo, if_neg hplaces]
      exact le_refl _
    rw [floor_eq_zero (hd.trans (Nat.le_succ _)) hexponent,
      floor_eq_zero ((coefficient_roundTo_le ..).trans (Nat.succ_le_succ hd)) hrounded]

/-- What does not fit a fixed-size decimal has more than sixteen digits of yuan. -/
theorem le_floor_of_capacity (hcoefficient : d.coefficient ≤ 10 ^ 20 + 1)
    (h : capacity ≤ d.coefficient * Nat.pow 10 d.exponent.toNat) :
    10 ^ 18 ≤ ⌊d.size * 10 ^ 2 + 1 / 2⌋₊ := by
  -- The coefficient alone would fit, so there are zeros behind it.
  have hexponent : 0 ≤ d.exponent := by
    by_contra hneg
    have hzero : d.exponent.toNat = 0 := by omega
    have hpow : Nat.pow 10 0 = 1 := rfl
    rw [hzero, hpow, Nat.mul_one] at h
    exact absurd (h.trans hcoefficient) (by decide)
  obtain ⟨n, hn⟩ := Int.eq_ofNat_of_zero_le hexponent
  rw [hn, Int.toNat_natCast] at h
  -- A coefficient with zeros behind it is a whole number, and as large as the capacity.
  have hsize : (2 ^ 96 : ℚ) ≤ d.size := by
    rw [size, hn, zpow_natCast]
    exact_mod_cast h
  refine Nat.le_floor ?_
  push_cast
  linarith

end Decimal

namespace Amount

variable {x : Float}

/-- The magnitude of an amount in fen: its shortest decimal, rounded to the nearest fen, a half
going up. -/
def magnitudeInFen (x : Float) : Nat :=
  match Binary.ofFloat x.abs with
  | .finite v => ⌊(v.shortest .up).size * 10 ^ 2 + 1 / 2⌋₊
  | _ => 0

/-- A finite amount is rounded to the fen, unless it has more than sixteen digits of yuan. -/
theorem fenOf?_finite {v : Binary} (hv : Binary.ofFloat x.abs = .finite v) :
    fenOf? x = some (magnitudeInFen x) ∨ fenOf? x = none ∧ 10 ^ 18 ≤ magnitudeInFen x := by
  have hshort := v.coefficient_shortest_le .up
  have hfen : magnitudeInFen x = ⌊((v.shortest .up).roundTo Decimal.maxPlaces).size * 10 ^ 2 +
      1 / 2⌋₊ := by
    rw [magnitudeInFen, hv, Decimal.floor_roundTo_maxPlaces hshort]
  rw [fenOf?, Decimal.ofFloat?, hv, hfen]
  dsimp only
  split
  · exact .inl (congrArg some (Decimal.coefficient_roundTo 2 _))
  · rename_i hcapacity
    refine .inr ⟨rfl, Decimal.le_floor_of_capacity ?_ (Nat.le_of_not_lt hcapacity)⟩
    exact (Decimal.coefficient_roundTo_le ..).trans (Nat.succ_le_succ hshort)

theorem fenOf?_eq_some {c : Nat} (h : fenOf? x = some c) : c = magnitudeInFen x := by
  cases hv : Binary.ofFloat x.abs with
  | nan | infinite =>
    rw [fenOf?, Decimal.ofFloat?, hv] at h
    cases h
  | finite v =>
    rcases fenOf?_finite hv with hsome | ⟨hnone, -⟩
    · exact Option.some.inj (h.symm.trans hsome)
    · cases h.symm.trans hnone

/-! ## §2 Reading by the positional rules -/

/-- The value of a capital numeral. -/
def capitalValue? : Char → Option Nat
  | '零' => some 0 | '壹' => some 1 | '贰' => some 2 | '叁' => some 3 | '肆' => some 4
  | '伍' => some 5 | '陆' => some 6 | '柒' => some 7 | '捌' => some 8 | '玖' => some 9
  | _ => none

/-- What has been read of an amount, with each digit counted as far as its units have come. -/
structure Tally where
  /-- The fen of the units of money that were read. -/
  fen : Nat
  /-- The yuan of the groups that were closed. -/
  groups : Nat
  /-- The digits of the open group that had a unit. -/
  group : Nat
  /-- The digit that waits for its unit. -/
  digit : Nat
deriving DecidableEq

namespace Tally

/-- Fen alone: every digit has been counted. -/
def ofFen (fen : Nat) : Tally := ⟨fen, 0, 0, 0⟩

/-- A digit, which waits for its unit. -/
def withDigit (t : Tally) (digit : Nat) : Tally := { t with digit := digit }

/-- A unit inside a group multiplies the digit by ten to the power `place`. -/
def unit (t : Tally) (place : Nat) : Tally :=
  { t with group := t.group + t.digit * 10 ^ place, digit := 0 }

/-- The unit of a group multiplies the total of the group by ten thousand to the power `index`. -/
def closeGroup (t : Tally) (index : Nat) : Tally :=
  { t with groups := t.groups + (t.group + t.digit) * 10000 ^ index, group := 0, digit := 0 }

/-- The yuan close the integer. -/
def yuan (t : Tally) : Tally := ofFen (t.fen + (t.groups + t.group + t.digit) * 100)

/-- Jiao and fen are units of money as well, of ten fen and of one. -/
def coin (t : Tally) (value : Nat) : Tally :=
  { t with fen := t.fen + t.digit * value, digit := 0 }

/-- Read capitals by the positional rules; nothing is read if there is some other character, if a
digit follows one whose unit has not come, or if one is left without a unit of money. -/
def read (t : Tally) : List Char → Option Nat
  | [] => if t = ofFen t.fen then some t.fen else none
  | '万' :: '亿' :: rest => (t.closeGroup 3).read rest
  | '亿' :: rest => (t.closeGroup 2).read rest
  | '万' :: rest => (t.closeGroup 1).read rest
  | '仟' :: rest => (t.unit 3).read rest
  | '佰' :: rest => (t.unit 2).read rest
  | '拾' :: rest => (t.unit 1).read rest
  | '元' :: rest => t.yuan.read rest
  | '角' :: rest => (t.coin 10).read rest
  | '分' :: rest => (t.coin 1).read rest
  | '整' :: rest => t.read rest
  | c :: rest =>
    match capitalValue? c with
    | some digit => if t.digit = 0 then (t.withDigit digit).read rest else none
    | none => none

end Tally

/-- Read an amount: whether it has the sign of the negative ones, and the fen. -/
def readAmount : List Char → Option (Bool × Nat)
  | '负' :: rest => ((Tally.ofFen 0).read rest).map (true, ·)
  | chars => ((Tally.ofFen 0).read chars).map (false, ·)

/-- Every zero stands in front of another digit: none ends the text, and none is doubled. -/
inductive ZerosLead : List Char → Prop
  | nil : ZerosLead []
  | zero {digit : Nat} {rest : List Char} (hpos : 0 < digit) (hdigit : digit < 10) :
      ZerosLead rest → ZerosLead ('零' :: chineseDigit digit :: rest)
  | other {c : Char} {rest : List Char} (hc : c ≠ '零') : ZerosLead rest → ZerosLead (c :: rest)

/-! ## §3 The digits of a group -/

section Reading

variable {fen groups sum : Nat} {rest : List Char}

theorem read_digit {t : Tally} {digit : Nat} (ht : t.digit = 0) (h : digit < 10) :
    t.read (chineseDigit digit :: rest) = (t.withDigit digit).read rest := by
  interval_cases digit <;> exact if_pos ht

theorem read_unit {t : Tally} {place : Nat} (hpos : 0 < place) (hplace : place < 4) :
    t.read (chineseUnit place ++ rest) = (t.unit place).read rest := by
  interval_cases place <;> rfl

theorem read_nil (n : Nat) : (Tally.ofFen n).read [] = some n := if_pos rfl

/-- A zero in front of a digit changes nothing. -/
theorem read_gap (gap : Bool) :
    (Tally.mk fen groups sum 0).read ((if gap then ['零'] else []) ++ rest) =
      (Tally.mk fen groups sum 0).read rest := by
  cases gap <;> rfl

/-- Reading the digits of a group adds them to the open group; the last one waits for the unit of
the group. -/
theorem read_groupDigits (group : Nat) {places : Nat} (hplaces : places ≤ 4) (started gap : Bool) :
    (Tally.mk fen groups sum 0).read (groupDigits group places started gap ++ rest) =
      (Tally.mk fen groups (sum + group % 10 ^ places / 10 * 10)
        (group % 10 ^ places % 10)).read rest := by
  -- What was written before, and whether a zero is due, makes no difference to the reader.
  induction places generalizing sum started gap with
  | zero =>
    rw [pow_zero, Nat.mod_one]
    rfl
  | succ place ih =>
    have hsplit : group % 10 ^ (place + 1) =
        group % 10 ^ place + 10 ^ place * (group / 10 ^ place % 10) := Nat.mod_pow_succ
    have hdigit : group / 10 ^ place % 10 < 10 := Nat.mod_lt _ (by decide)
    -- The number of this place is the digit, and what the digits behind it are worth is left to
    -- `ih`.
    rw [groupDigits, hsplit]
    show Tally.read _ (ite ((group / 10 ^ place % 10 == 0) = true) _ _ ++ rest) = _
    generalize group / 10 ^ place % 10 = digit at hdigit ⊢
    split
    · -- A zero is left out, whether or not a later one makes up for it.
      rename_i hzero
      obtain rfl : digit = 0 := by simpa using hzero
      rw [ih (by omega), Nat.mul_zero, Nat.add_zero]
    · simp only [List.append_assoc, List.cons_append]
      rw [read_gap, read_digit rfl hdigit]
      match place with
      | 0 =>
        -- The last digit has no unit of its own.
        rw [pow_zero, Nat.mod_one, Nat.one_mul, Nat.zero_add, Nat.div_eq_of_lt hdigit,
          Nat.mod_eq_of_lt hdigit]
        rfl
      | place + 1 =>
        -- The unit multiplies the digit, so what it adds to the sum is a multiple of ten.
        obtain ⟨tens, htens⟩ : ∃ tens, 10 ^ (place + 1) * digit = 10 * tens :=
          ⟨10 ^ place * digit, by ring⟩
        have hunit : ((Tally.mk fen groups sum 0).withDigit digit).unit (place + 1) =
            ⟨fen, groups, sum + 10 * tens, 0⟩ := by
          rw [← htens, Nat.mul_comm]
          rfl
        have hsum : sum + 10 * tens + group % 10 ^ (place + 1) / 10 * 10 =
            sum + (group % 10 ^ (place + 1) + 10 * tens) / 10 * 10 := by omega
        rw [read_unit (Nat.succ_pos _) (by omega), hunit, ih (by omega), hsum, htens,
          Nat.add_mul_mod_self_left]

theorem chineseDigit_ne_zero {digit : Nat} (hpos : 0 < digit) (hdigit : digit < 10) :
    chineseDigit digit ≠ '零' := by
  interval_cases digit <;> decide

theorem chineseDigit_ne_group {digit : Nat} (hdigit : digit < 10) : chineseDigit digit ≠ '亿' := by
  interval_cases digit <;> decide

theorem ZerosLead.append {l : List Char} (hl : ZerosLead l) (h : ZerosLead rest) :
    ZerosLead (l ++ rest) := by
  induction hl with
  | nil => exact h
  | zero hpos hdigit _ ih => exact .zero hpos hdigit ih
  | other hc _ ih => exact .other hc ih

theorem ZerosLead.unit (place : Nat) (h : ZerosLead rest) :
    ZerosLead (chineseUnit place ++ rest) := by
  unfold chineseUnit
  split
  case h_4 => exact h
  all_goals exact .other (by decide) h

theorem ZerosLead.groupUnit (index : Nat) (h : ZerosLead rest) :
    ZerosLead (chineseGroupUnit index ++ rest) := by
  unfold chineseGroupUnit
  split
  · exact .other (by decide) h
  · exact .other (by decide) h
  · exact .other (by decide) (.other (by decide) h)
  · exact h

/-- The zeros of a group stand in front of other digits. -/
theorem zerosLead_groupDigits (group places : Nat) (started gap : Bool) :
    ZerosLead (groupDigits group places started gap) := by
  induction places generalizing started gap with
  | zero => exact .nil
  | succ place ih =>
    have hdigit : group / Nat.pow 10 place % 10 < 10 := Nat.mod_lt _ (by decide)
    rw [groupDigits]
    split
    · -- Nothing is written, and whether a zero is due does not matter to what follows.
      exact ih _ _
    · rename_i hne
      have hpos : 0 < group / Nat.pow 10 place % 10 := Nat.pos_of_ne_zero (by simpa using hne)
      -- A zero is written only together with the digit that is written here.
      have htail := (ih true false).unit place
      cases gap with
      | true => exact .zero hpos hdigit htail
      | false => exact .other (chineseDigit_ne_zero hpos hdigit) htail

/-- A group that is not zero begins with another digit. -/
theorem exists_groupDigits {group places : Nat} (h : group % 10 ^ places ≠ 0) :
    ∃ digit tail, 0 < digit ∧ digit < 10 ∧ ZerosLead tail ∧
      groupDigits group places false false = chineseDigit digit :: tail := by
  induction places with
  | zero => exact absurd (Nat.mod_one group) h
  | succ place ih =>
    have hdigit : group / 10 ^ place % 10 < 10 := Nat.mod_lt _ (by decide)
    rw [Nat.mod_pow_succ] at h
    rw [groupDigits]
    split
    · -- The first digit stands further behind.
      rename_i hzero
      have hzero' : group / 10 ^ place % 10 = 0 := beq_iff_eq.mp hzero
      rw [hzero', Nat.mul_zero, Nat.add_zero] at h
      exact ih h
    · -- This is the first digit, and no zero is due in front of it.
      rename_i hne
      have hpos : 0 < group / 10 ^ place % 10 := Nat.pos_of_ne_zero (by simpa using hne)
      have htail := (zerosLead_groupDigits group place true false).unit place
      exact ⟨_, _, hpos, hdigit, htail, rfl⟩

/-! ## §4 The groups of an integer -/

theorem exists_groupToChinese {group : Nat} (hpos : 0 < group) (h : group < 10000) :
    ∃ digit tail, 0 < digit ∧ digit < 10 ∧ ZerosLead tail ∧
      groupToChinese group = chineseDigit digit :: tail :=
  exists_groupDigits (by rw [Nat.mod_eq_of_lt (by omega)]; omega)

/-- The unit of a group is read as one, unless another unit follows. -/
theorem read_groupUnit {t : Tally} {index : Nat} (hpos : 0 < index) (hindex : index < 4)
    (hrest : rest.head? ≠ some '亿') :
    t.read (chineseGroupUnit index ++ rest) = (t.closeGroup index).read rest := by
  interval_cases index
  · cases rest with
    | nil => rfl
    | cons c rest =>
      have hc : c ≠ '亿' := fun h => hrest (congrArg some h)
      show Tally.read t ('万' :: c :: rest) = _
      rw [Tally.read]
      exact fun _ heq => hc (List.cons.inj heq).1
  · rfl
  · rfl

/-- No group begins with a unit. -/
theorem head?_integerGroups_ne (integer groups : Nat) (started gap : Bool)
    (hrest : rest.head? ≠ some '亿') :
    (integerGroups integer groups started gap ++ rest).head? ≠ some '亿' := by
  induction groups generalizing started gap with
  | zero => exact hrest
  | succ index ih =>
    have hgroup : integer / Nat.pow 10000 index % 10000 < 10000 := Nat.mod_lt _ (by decide)
    rw [integerGroups]
    split
    · -- An empty group leaves no trace, so the next one decides.
      exact ih _ _
    · rename_i hne
      -- A group begins with a digit, or with a zero that is due; neither is the unit.
      obtain ⟨digit, tail, -, hdigit, -, hgroup⟩ :=
        exists_groupToChinese (Nat.pos_of_ne_zero (by simpa using hne)) hgroup
      rw [hgroup]
      split
      · simp
      · simpa using chineseDigit_ne_group hdigit

/-- Reading the groups of an integer up to the yuan adds the integer. -/
theorem read_integerGroups (integer : Nat) {count : Nat} (hcount : count ≤ 4) (started gap : Bool) :
    (Tally.mk fen groups 0 0).read (integerGroups integer count started gap ++ '元' :: rest) =
      (Tally.ofFen (fen + (groups + integer % 10000 ^ count) * 100)).read rest := by
  -- The highest group is closed by its unit, and the others are read on top of it.
  induction count generalizing groups started gap with
  | zero =>
    rw [pow_zero, Nat.mod_one]
    rfl
  | succ index ih =>
    have hsplit : integer % 10000 ^ (index + 1) =
        integer % 10000 ^ index + 10000 ^ index * (integer / 10000 ^ index % 10000) :=
      Nat.mod_pow_succ
    have hgroup : integer / 10000 ^ index % 10000 < 10000 := Nat.mod_lt _ (by decide)
    -- The groups from here on are this one and what `ih` reads of the others.
    rw [integerGroups, hsplit]
    show Tally.read _ (ite ((integer / 10000 ^ index % 10000 == 0) = true) _ _ ++ '元' :: rest) = _
    generalize integer / 10000 ^ index % 10000 = group at hgroup ⊢
    split
    · -- An empty group adds nothing and writes nothing.
      rename_i hzero
      obtain rfl : group = 0 := by simpa using hzero
      rw [ih (by omega), Nat.mul_zero, Nat.add_zero]
    · have hdigits : group % 10 ^ 4 / 10 * 10 + group % 10 ^ 4 % 10 = group := by omega
      simp only [List.append_assoc]
      rw [read_gap, groupToChinese, read_groupDigits group (le_refl 4), Nat.zero_add]
      cases index with
      | zero =>
        -- The lowest group has no unit; the yuan close it.
        show Tally.read (Tally.yuan _) rest = _
        rw [Tally.yuan, Nat.add_assoc groups, hdigits, pow_zero, Nat.mod_one, Nat.zero_add,
          Nat.one_mul]
      | succ index =>
        -- What follows begins with no unit, so the unit of this group is read whole.
        have hnext : (integerGroups integer (index + 1) true false ++ '元' :: rest).head? ≠
            some '亿' := head?_integerGroups_ne _ _ _ _ (by simp)
        rw [read_groupUnit (Nat.succ_pos _) (by omega) hnext, Tally.closeGroup]
        dsimp only
        rw [hdigits, ih (by omega), Nat.add_assoc groups, Nat.mul_comm group,
          Nat.add_comm (10000 ^ _ * group)]

/-- The zeros between groups stand in front of other digits. -/
theorem zerosLead_integerGroups (integer groups : Nat) (started gap : Bool) (h : ZerosLead rest) :
    ZerosLead (integerGroups integer groups started gap ++ rest) := by
  induction groups generalizing started gap with
  | zero => exact h
  | succ index ih =>
    have hgroup : integer / Nat.pow 10000 index % 10000 < 10000 := Nat.mod_lt _ (by decide)
    rw [integerGroups]
    split
    · -- An empty group writes nothing.
      exact ih _ _
    · rename_i hne
      obtain ⟨digit, tail, hpos, hdigit, htail, hgroup⟩ :=
        exists_groupToChinese (Nat.pos_of_ne_zero (by simpa using hne)) hgroup
      -- A zero that is written here stands in front of the first digit of the group.
      have hrest := htail.append ((ih true false).groupUnit index)
      rw [hgroup]
      simp only [List.append_assoc, List.cons_append]
      split
      · exact .zero hpos hdigit hrest
      · exact .other (chineseDigit_ne_zero hpos hdigit) hrest

/-! ## §5 Yuan, jiao and fen -/

/-- What is written of the yuan, in front of jiao and fen. -/
theorem read_yuan {integer : Nat} (h : integer < 10 ^ 16) :
    (Tally.ofFen 0).read
        ((if integer == 0 then [] else integerGroups integer 4 false false ++ ['元']) ++ rest) =
      (Tally.ofFen (integer * 100)).read rest := by
  split
  · rename_i hzero
    obtain rfl : integer = 0 := beq_iff_eq.mp hzero
    rfl
  · rw [List.append_assoc, List.singleton_append, Tally.ofFen,
      read_integerGroups integer (le_refl 4), Nat.mod_eq_of_lt (by omega), Nat.zero_add,
      Nat.zero_add]

theorem read_jiao {n jiao : Nat} (hjiao : jiao < 10) (gap : Bool) :
    (Tally.ofFen n).read ((if jiao == 0 then if gap then [] else ['零']
        else [chineseDigit jiao, '角']) ++ rest) =
      (Tally.ofFen (n + jiao * 10)).read rest := by
  split
  · rename_i hzero
    obtain rfl : jiao = 0 := beq_iff_eq.mp hzero
    rw [Nat.zero_mul, Nat.add_zero]
    cases gap <;> rfl
  · rw [List.cons_append, read_digit rfl hjiao]
    rfl

theorem read_fen {n last : Nat} (hlast : last < 10) :
    (Tally.ofFen n).read (if last == 0 then ['整'] else [chineseDigit last, '分']) =
      some (n + last) := by
  split
  · rename_i hzero
    obtain rfl : last = 0 := beq_iff_eq.mp hzero
    exact read_nil n
  · rw [read_digit rfl hlast]
    show (Tally.ofFen (n + last * 1)).read [] = _
    rw [Nat.mul_one, read_nil]

/-- Reading the capitals of an amount gives the amount. -/
theorem read_fenToChinese {fen : Nat} (h : fen < 10 ^ 18) :
    (Tally.ofFen 0).read (fenToChinese fen) = some fen := by
  unfold fenToChinese
  dsimp only
  split
  · rename_i hzero
    obtain rfl : fen = 0 := beq_iff_eq.mp hzero
    rfl
  · rw [List.append_assoc, read_yuan (by omega), read_jiao (Nat.mod_lt _ (by decide)),
      read_fen (Nat.mod_lt _ (by decide))]
    congr 1
    omega

/-- Of an amount that is not zero every zero stands in front of another digit. -/
theorem zerosLead_fenToChinese {fen : Nat} (h : fen ≠ 0) : ZerosLead (fenToChinese fen) := by
  have hjiao : fen / 10 % 10 < 10 := Nat.mod_lt _ (by decide)
  have hlast : fen % 10 < 10 := Nat.mod_lt _ (by decide)
  unfold fenToChinese
  dsimp only
  rw [if_neg (by simpa using h)]
  -- What is written depends on the two last digits and on what stands in front of them alone.
  generalize fen / 10 % 10 = jiao at hjiao ⊢
  generalize fen % 10 = last at hlast ⊢
  generalize fen / 100 = integer
  -- From the right to the left: first the fen, then the jiao, then the yuan.
  have hhundredths : ZerosLead (if last == 0 then ['整'] else [chineseDigit last, '分']) := by
    split
    · exact .other (by decide) .nil
    · rename_i hne
      exact .other (chineseDigit_ne_zero (Nat.pos_of_ne_zero (by simpa using hne)) hlast)
        (.other (by decide) .nil)
  have htenths : ZerosLead
      ((if jiao == 0 then if integer == 0 || last == 0 then [] else ['零']
        else [chineseDigit jiao, '角']) ++
      (if last == 0 then ['整'] else [chineseDigit last, '分'])) := by
    split
    · split
      · exact hhundredths
      · -- A zero stands for the jiao only where fen follow.
        rename_i hgap
        have hne : last ≠ 0 := by
          rintro rfl
          simp at hgap
        rw [if_neg (by simpa using hne)]
        exact .zero (Nat.pos_of_ne_zero hne) hlast (.other (by decide) .nil)
    · rename_i hne
      exact .other (chineseDigit_ne_zero (Nat.pos_of_ne_zero (by simpa using hne)) hjiao)
        (.other (by decide) hhundredths)
  rw [List.append_assoc]
  split
  · exact htenths
  · rw [List.append_assoc]
    exact zerosLead_integerGroups _ _ _ _ (.other (by decide) htenths)

theorem getLast?_fenToChinese (fen : Nat) :
    (fenToChinese fen).getLast? = some '分' ∨ (fenToChinese fen).getLast? = some '整' := by
  unfold fenToChinese
  dsimp only
  split
  · exact .inr rfl
  · rw [List.getLast?_append]
    split
    · exact .inr rfl
    · exact .inl rfl

end Reading

/-! ## §6 Signs -/

theorem readAmount_of_read {chars : List Char} {c : Nat}
    (h : (Tally.ofFen 0).read chars = some c) : readAmount chars = some (false, c) := by
  unfold readAmount
  split
  · -- A sign is no capital.
    cases h
  · rw [h]
    rfl

theorem readAmount_negative {chars : List Char} {c : Nat}
    (h : (Tally.ofFen 0).read chars = some c) : readAmount ('负' :: chars) = some (true, c) := by
  rw [readAmount, h]
  rfl

/-- An amount in fen with its sign. -/
def signedFen? (x : Float) : Option Int :=
  (fenOf? x).map fun fen => if x < 0 then -(fen : Int) else fen

/-- The capitals of an amount: the sign, if any, and those of the fen. -/
theorem chinese?_eq_some_iff {text : String} :
    chinese? x = some text ↔ ∃ c, fenOf? x = some c ∧ c < 10 ^ 18 ∧
      text = String.ofList ((if c != 0 && x < 0 then ['负'] else []) ++ fenToChinese c) := by
  rw [chinese?, chineseChars?]
  cases fenOf? x with
  | none => simp
  | some c =>
    dsimp only
    split
    · rename_i hlarge
      constructor
      · rintro ⟨⟩
      · rintro ⟨_, ⟨⟩, hsmall, -⟩
        exact absurd hsmall (Nat.not_lt.mpr hlarge)
    · rename_i hsmall
      have htext : (if c != 0 && x < 0 then some ('负' :: fenToChinese c)
          else some (fenToChinese c)).map String.ofList =
            some (String.ofList ((if c != 0 && x < 0 then ['负'] else []) ++ fenToChinese c)) := by
        split <;> rfl
      rw [htext]
      -- With room for the amount, the sign and the characters are what both sides speak of.
      constructor
      · rintro ⟨⟩
        exact ⟨c, rfl, Nat.lt_of_not_le hsmall, rfl⟩
      · rintro ⟨_, ⟨⟩, -, rfl⟩
        rfl

/-- There is no text just for amounts with more than sixteen digits of yuan. -/
theorem chinese?_eq_none_iff (hfinite : x.isFinite = true) :
    chinese? x = none ↔ 16 < (digitsOf (magnitudeInFen x / 100)).length := by
  obtain ⟨v, hv, -⟩ := exists_ofFloat_abs hfinite
  rw [← Nat.not_le, length_digitsOf_le_iff (by decide)]
  constructor
  · -- A number that fits has a text.
    intro hnone hsmall
    rcases fenOf?_finite hv with hfen | ⟨-, hlarge⟩
    · have hsome := chinese?_eq_some_iff.mpr ⟨_, hfen, by omega, rfl⟩
      cases hnone.symm.trans hsome
    · omega
  · intro hlarge
    -- A number with a text has an amount below the capacity.
    refine Option.eq_none_iff_forall_ne_some.mpr fun text htext => ?_
    obtain ⟨c, hc, hlt, -⟩ := chinese?_eq_some_iff.mp htext
    rw [fenOf?_eq_some hc] at hlt
    omega

variable {text : String}

/-- What is written is read back. -/
theorem readAmount_chinese? (h : chinese? x = some text) :
    ∃ c, fenOf? x = some c ∧ readAmount text.toList = some (c != 0 && x < 0, c) := by
  obtain ⟨c, hc, hlt, rfl⟩ := chinese?_eq_some_iff.mp h
  have hread : (Tally.ofFen 0).read (fenToChinese c) = some c := read_fenToChinese hlt
  refine ⟨c, hc, ?_⟩
  rw [String.toList_ofList]
  cases hsign : c != 0 && decide (x < 0) with
  | true => exact readAmount_negative hread
  | false => exact readAmount_of_read hread

/-- With or without a sign, the zeros stand in front of other digits, and the end is the same. -/
theorem zerosLead_chinese? (h : chinese? x = some text) (hzero : fenOf? x ≠ some 0) :
    ZerosLead text.toList ∧
      (text.toList.getLast? = some '分' ∨ text.toList.getLast? = some '整') := by
  obtain ⟨c, hc, -, rfl⟩ := chinese?_eq_some_iff.mp h
  have hne : c ≠ 0 := by
    rintro rfl
    exact hzero hc
  -- A sign is no zero, so it may stand anywhere.
  have hsign : ZerosLead (if c != 0 && x < 0 then ['负'] else []) := by
    split
    · exact .other (by decide) .nil
    · exact .nil
  rw [String.toList_ofList, List.getLast?_append]
  refine ⟨hsign.append (zerosLead_fenToChinese hne), ?_⟩
  rcases getLast?_fenToChinese c with hlast | hlast
  · exact .inl (by rw [hlast]; rfl)
  · exact .inr (by rw [hlast]; rfl)

/-- A text is read in one way only, so it stands for one signed number of fen. -/
theorem signedFen?_eq_of_chinese? {y : Float} (hx : chinese? x = some text)
    (hy : chinese? y = some text) : signedFen? x = signedFen? y := by
  obtain ⟨c, hc, hread⟩ := readAmount_chinese? hx
  obtain ⟨c', hc', hread'⟩ := readAmount_chinese? hy
  obtain ⟨hsign, rfl⟩ := Prod.mk.inj (Option.some.inj (hread.symm.trans hread'))
  have hsame : (if x < 0 then -(c : Int) else c) = if y < 0 then -(c : Int) else c := by
    by_cases hzero : c = 0
    · simp [hzero]
    · have hne : (c != 0) = true := by simpa using hzero
      rw [hne, Bool.true_and, Bool.true_and, decide_eq_decide] at hsign
      simp only [hsign]
  rw [signedFen?, signedFen?, hc, hc']
  exact congrArg some hsame

/-- **Amounts in Chinese capitals can be read back.** What is written of an amount is read by the
positional rules as its rounded number of fen, with the sign of the amount unless that is zero; so
two amounts have the same text only if they are rounded to the same signed number of fen. Apart from
the text of zero, every zero stands in front of another digit, and the text ends in fen or in the
character for a whole amount. A finite amount has no text just if its rounded amount has more than
sixteen digits of yuan. -/
theorem chinese_readBack :
    (∀ x text, chinese? x = some text → ∃ c,
      fenOf? x = some c ∧ c = magnitudeInFen x ∧
      readAmount text.toList = some (c != 0 && x < 0, c) ∧
      (c ≠ 0 → ZerosLead text.toList ∧
        (text.toList.getLast? = some '分' ∨ text.toList.getLast? = some '整'))) ∧
    (∀ x y text, chinese? x = some text → chinese? y = some text →
      signedFen? x = signedFen? y) ∧
    ∀ x, x.isFinite = true →
      (chinese? x = none ↔ 16 < (digitsOf (magnitudeInFen x / 100)).length) := by
  refine ⟨fun x text h => ?_, fun x y text => signedFen?_eq_of_chinese?,
    fun x => chinese?_eq_none_iff⟩
  obtain ⟨c, hc, hread⟩ := readAmount_chinese? h
  refine ⟨c, hc, fenOf?_eq_some hc, hread, fun hne => zerosLead_chinese? h ?_⟩
  rw [hc]
  exact fun hzero => hne (Option.some.inj hzero)

/-- The unit of the highest group counts its total once, whatever groups follow. -/
example : readAmount "负壹仟零贰拾万亿零叁亿零肆元零伍分".toList =
    some (true, 1020000300000004 * 100 + 5) := by decide +kernel

end Amount

end BandedReport
