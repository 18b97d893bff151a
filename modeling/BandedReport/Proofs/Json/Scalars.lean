import Mathlib.Algebra.Group.Int.Defs
import Mathlib.Algebra.Group.Nat.Defs
import Mathlib.Data.List.TakeWhile
import BandedReport.Json.Reader
import BandedReport.Json.Writer
import BandedReport.Proofs.Decimal.Numerals

/-!
# Reading the scalars of a JSON text back

A string that was written is read as itself, whatever its characters are, and an integer that
sixty-four bits hold is read as that integer. The text of a double need not be read as that double:
`ReadsBack` says that it is. How a number is read does not depend on what stands behind it, as long
as that cannot continue a number.
-/

namespace BandedReport.Json

/-! ## §1 Steps that succeed -/

/-- A step gives a result and leaves some characters. -/
def Gives {α : Type} {p : List Char → Prop} (step : Option (α × { rest : List Char // p rest }))
    (a : α) (rest : List Char) : Prop :=
  ∃ h, step = some (a, ⟨rest, h⟩)

@[simp] theorem gives_none {α : Type} {p : List Char → Prop} {a : α} {rest : List Char} :
    ¬ Gives (none : Option (α × { rest : List Char // p rest })) a rest := by
  rintro ⟨_, h⟩
  cases h

@[simp] theorem gives_some {α : Type} {p : List Char → Prop} {a b : α} {rest rest' : List Char}
    {h : p rest} : Gives (some (a, (⟨rest, h⟩ : { rest : List Char // p rest }))) b rest' ↔
      a = b ∧ rest = rest' := by
  constructor
  · rintro ⟨_, heq⟩
    simpa using heq
  · rintro ⟨rfl, rfl⟩
    exact ⟨h, rfl⟩

/-- A step whose result is changed gives the changed result and leaves the same characters. -/
theorem gives_map {α β : Type} {p q : List Char → Prop}
    {step : Option (α × { rest : List Char // p rest })}
    {f : α × { rest : List Char // p rest } → β × { rest : List Char // q rest }} (g : α → β)
    (hf : ∀ r, (f r).1 = g r.1 ∧ (f r).2.1 = r.2.1) {b : β} {rest : List Char} :
    Gives (step.map f) b rest ↔ ∃ a, g a = b ∧ Gives step a rest := by
  match step with
  | none => simp
  | some (a, ⟨rest', h⟩) =>
    -- The map keeps what is left to read and changes the result only.
    obtain ⟨hresult, hrest⟩ := hf (a, ⟨rest', h⟩)
    rw [Option.map_some]
    generalize f (a, ⟨rest', h⟩) = r at *
    obtain ⟨b', ⟨left, hleft⟩⟩ := r
    obtain ⟨rfl, rfl⟩ : b' = g a ∧ left = rest' := ⟨hresult, hrest⟩
    simp only [gives_some]
    constructor
    · rintro ⟨rfl, rfl⟩
      exact ⟨a, rfl, rfl, rfl⟩
    · rintro ⟨_, rfl, rfl, rfl⟩
      exact ⟨rfl, rfl⟩

/-! ## §2 Strings -/

/-- The four digits of a control character denote it. -/
private theorem hexUnit?_control :
    ∀ n < 0x20, hexUnit? '0' '0' (Nat.digitChar (n / 16)) (Nat.digitChar (n % 16)) = some n := by
  decide

/-- A unit that is no surrogate stands for one character, whatever follows. -/
theorem joinUnits_code {n : Nat} (h : n < 0xD800) (units : List StringUnit) :
    joinUnits (.code n :: units) = (joinUnits units).map (Char.ofNat n :: ·) := by
  have hhigh : isHighSurrogate n = false := by
    simp only [isHighSurrogate, Bool.and_eq_false_iff, decide_eq_false_iff_not]
    omega
  have hlow : isLowSurrogate n = false := by
    simp only [isLowSurrogate, Bool.and_eq_false_iff, decide_eq_false_iff_not]
    omega
  match units with
  | [] => simp [joinUnits, hhigh, hlow]
  | .char _ :: _ => simp [joinUnits, hhigh, hlow]
  | .code _ :: _ => simp [joinUnits, hhigh, hlow]

/-- The three ways a character is written: with an escape of one letter, by the digits of its
number, or as it stands. -/
theorem escapeChar_cases (c : Char) :
    (∃ e, escapeChar c = ['\\', e] ∧ e ≠ 'u' ∧ simpleEscape? e = some c) ∨
    (c.toNat < 0x20 ∧ escapeChar c =
      ['\\', 'u', '0', '0', Nat.digitChar (c.toNat / 16), Nat.digitChar (c.toNat % 16)]) ∨
    (c ≠ '"' ∧ c ≠ '\\' ∧ ¬ c.toNat < 0x20 ∧ escapeChar c = [c]) := by
  unfold escapeChar
  split
  case h_8 hquote hslash _ _ _ _ _ =>
    by_cases hcontrol : c.toNat < 0x20
    · exact .inr (.inl ⟨hcontrol, if_pos hcontrol⟩)
    · exact .inr (.inr ⟨hquote, hslash, hcontrol, if_neg hcontrol⟩)
  all_goals exact .inl ⟨_, rfl, by decide, rfl⟩

/-- No written character begins with the closing quote. -/
theorem head_escapeChar (c : Char) : ∃ d tail, escapeChar c = d :: tail ∧ d ≠ '"' := by
  rcases escapeChar_cases c with ⟨e, h, -⟩ | ⟨-, h⟩ | ⟨hquote, -, -, h⟩
  · exact ⟨_, _, h, by decide⟩
  · exact ⟨_, _, h, by decide⟩
  · exact ⟨_, _, h, hquote⟩

/-- A written character is read as one unit, and the unit stands for that character. -/
theorem readUnit_escapeChar (c : Char) (rest : List Char) :
    ∃ unit, Gives (readUnit (escapeChar c ++ rest)) unit rest ∧
      ∀ units, joinUnits (unit :: units) = (joinUnits units).map (c :: ·) := by
  -- The digits of a control character give a code, which may meet another code behind it; the
  -- other two ways give the character at once.
  rcases escapeChar_cases c with ⟨e, h, hu, hletter⟩ | ⟨hcontrol, h⟩ | ⟨-, hslash, hcontrol, h⟩
  · refine ⟨.char c, ?_, fun units => rfl⟩
    rw [h]
    exact ⟨Nat.lt_add_of_pos_right (Nat.succ_pos 1), by simp [readUnit, hu, hletter]⟩
  · refine ⟨.code c.toNat, ?_, fun units => ?_⟩
    · rw [h]
      exact ⟨Nat.lt_add_of_pos_right (Nat.succ_pos 5),
        by simp [readUnit, hexUnit?_control c.toNat hcontrol]⟩
    · rw [joinUnits_code (Nat.lt_trans hcontrol (by decide)), Char.ofNat_toNat]
  · refine ⟨.char c, ?_, fun units => rfl⟩
    rw [h]
    exact ⟨length_lt_cons c rest, by simp [readUnit, hslash, hcontrol]⟩

theorem readUnits_cons {chars chars' rest : List Char} {c : Char} {unit : StringUnit}
    {units : List StringUnit} (hquote : c ≠ '"') (hunit : Gives (readUnit (c :: chars)) unit chars')
    (hunits : Gives (readUnits chars') units rest) :
    Gives (readUnits (c :: chars)) (unit :: units) rest := by
  obtain ⟨h, hunit⟩ := hunit
  obtain ⟨h', hunits⟩ := hunits
  refine ⟨Nat.lt_trans h' h, ?_⟩
  rw [readUnits, if_neg (by simpa using hquote), hunit]
  dsimp only
  rw [hunits]

/-- Written characters are read, up to the closing quote, as units that stand for them. -/
theorem readUnits_escaped (chars rest : List Char) :
    ∃ units, Gives (readUnits (chars.flatMap escapeChar ++ '"' :: rest)) units rest ∧
      joinUnits units = some chars := by
  induction chars with
  | nil =>
    refine ⟨[], ?_, rfl⟩
    rw [List.flatMap_nil, List.nil_append]
    exact ⟨length_lt_cons '"' rest, by simp [readUnits]⟩
  | cons c chars ih =>
    obtain ⟨units, hunits, hjoin⟩ := ih
    obtain ⟨unit, hunit, hchar⟩ :=
      readUnit_escapeChar c (chars.flatMap escapeChar ++ '"' :: rest)
    obtain ⟨d, tail, hescape, hquote⟩ := head_escapeChar c
    -- The first character does not look like the closing quote, so the string goes on.
    refine ⟨unit :: units, ?_, ?_⟩
    · rw [List.flatMap_cons, List.append_assoc]
      rw [hescape] at hunit ⊢
      exact readUnits_cons hquote hunit hunits
    · rw [hchar, hjoin]
      rfl

/-- A written string is read back, whatever its characters are. -/
theorem readString_escaped (s : String) (rest : List Char) :
    Gives (readString (s.toList.flatMap escapeChar ++ '"' :: rest)) (some s) rest := by
  obtain ⟨units, hunits, hjoin⟩ := readUnits_escaped s.toList rest
  refine (gives_map (fun units => (joinUnits units).map String.ofList)
    fun _ => ⟨rfl, rfl⟩).mpr ⟨units, ?_, hunits⟩
  rw [hjoin, Option.map_some, String.ofList_toList]

/-! ## §3 What stands behind a number -/

/-- The characters cannot continue a number. -/
def EndsNumber (rest : List Char) : Prop :=
  ∀ c ∈ rest.head?, c.isDigit = false ∧ c ≠ '.' ∧ c ≠ 'e' ∧ c ≠ 'E'

theorem endsNumber_nil : EndsNumber [] := by
  intro c hc
  simp at hc

theorem endsNumber_cons {c : Char} (h : c = ',' ∨ c = '\n') (rest : List Char) :
    EndsNumber (c :: rest) := by
  intro d hd
  obtain rfl : c = d := by simpa using hd
  rcases h with rfl | rfl <;> decide

/-- Digits end where the text ends, or where no digit follows. -/
theorem takeWhile_isDigit_append (chars : List Char) {rest : List Char}
    (hrest : EndsNumber rest) :
    (chars ++ rest).takeWhile Char.isDigit = chars.takeWhile Char.isDigit ∧
      (chars ++ rest).dropWhile Char.isDigit = chars.dropWhile Char.isDigit ++ rest := by
  induction chars with
  | nil =>
    -- What follows the number is no digit.
    cases rest with
    | nil => exact ⟨rfl, rfl⟩
    | cons c rest =>
      have hc : c.isDigit = false := (hrest c rfl).1
      simp [hc]
  | cons c chars ih =>
    cases hc : c.isDigit with
    | false => simp [hc]
    | true => simp [hc, ih.1, ih.2]

theorem readDigits_append {chars digits more rest : List Char}
    (h : Gives (readDigits chars) digits more) (hrest : EndsNumber rest) :
    Gives (readDigits (chars ++ rest)) digits (more ++ rest) := by
  obtain ⟨hmore, h⟩ := h
  refine ⟨by simpa using hmore, ?_⟩
  cases chars with
  | nil => simp [readDigits] at h
  | cons c chars =>
    obtain ⟨htake, hdrop⟩ := takeWhile_isDigit_append chars hrest
    simp only [readDigits, List.cons_append, htake, hdrop] at h ⊢
    split at h
    · simp_all
    · contradiction

theorem takeSign_append {chars : List Char} (h : chars ≠ []) (rest : List Char) :
    takeSign (chars ++ rest) = ((takeSign chars).1, (takeSign chars).2 ++ rest) := by
  match chars, h with
  | c :: chars, _ =>
    unfold takeSign
    split <;> split <;> simp_all

theorem readFraction_point {tail more : List Char} {fraction : Option (List Char)} :
    Gives (readFraction ('.' :: tail)) fraction more ↔
      ∃ digits, some digits = fraction ∧ Gives (readDigits tail) digits more :=
  gives_map some fun _ => ⟨rfl, rfl⟩

theorem readFraction_of_ne {chars more : List Char} {fraction : Option (List Char)}
    (h : chars.head? ≠ some '.') :
    Gives (readFraction chars) fraction more ↔ none = fraction ∧ chars = more := by
  cases chars with
  | nil => simp [readFraction]
  | cons c tail =>
    have hc : c ≠ '.' := by simpa using h
    simp [readFraction, hc]

theorem readFraction_append {chars more rest : List Char} {fraction : Option (List Char)}
    (h : Gives (readFraction chars) fraction more) (hrest : EndsNumber rest) :
    Gives (readFraction (chars ++ rest)) fraction (more ++ rest) := by
  by_cases hpoint : chars.head? = some '.'
  · obtain ⟨tail, rfl⟩ := List.head?_eq_some_iff.mp hpoint
    obtain ⟨digits, rfl, hdigits⟩ := readFraction_point.mp h
    exact readFraction_point.mpr ⟨digits, rfl, readDigits_append hdigits hrest⟩
  · obtain ⟨rfl, rfl⟩ := (readFraction_of_ne hpoint).mp h
    refine (readFraction_of_ne ?_).mpr ⟨rfl, rfl⟩
    cases chars with
    | nil => exact fun hhead => (hrest '.' hhead).2.1 rfl
    | cons c tail => exact hpoint

theorem readExponent_letter {c : Char} (hc : c = 'e' ∨ c = 'E') {tail more : List Char}
    {exponent : Option (Bool × List Char)} :
    Gives (readExponent (c :: tail)) exponent more ↔
      ∃ digits, some ((takeSign tail).1, digits) = exponent ∧
        Gives (readDigits (takeSign tail).2) digits more := by
  have hletter : (c == 'e' || c == 'E') = true := by simpa using hc
  rw [readExponent, if_pos hletter]
  exact gives_map (fun digits => some ((takeSign tail).1, digits)) fun _ => ⟨rfl, rfl⟩

theorem readExponent_of_ne {chars more : List Char} {exponent : Option (Bool × List Char)}
    (h : ∀ c ∈ chars.head?, ¬ (c = 'e' ∨ c = 'E')) :
    Gives (readExponent chars) exponent more ↔ none = exponent ∧ chars = more := by
  cases chars with
  | nil => simp [readExponent]
  | cons c tail => simp [readExponent, h c rfl]

theorem readExponent_append {chars more rest : List Char} {exponent : Option (Bool × List Char)}
    (h : Gives (readExponent chars) exponent more) (hrest : EndsNumber rest) :
    Gives (readExponent (chars ++ rest)) exponent (more ++ rest) := by
  -- An exponent begins with its letter.
  by_cases hletter : ∃ c tail, chars = c :: tail ∧ (c = 'e' ∨ c = 'E')
  · obtain ⟨c, tail, rfl, hc⟩ := hletter
    obtain ⟨digits, rfl, hdigits⟩ := (readExponent_letter hc).mp h
    have hne : tail ≠ [] := by
      rintro rfl
      exact gives_none hdigits
    have hsign := takeSign_append hne rest
    rw [List.cons_append]
    refine (readExponent_letter hc).mpr ⟨digits, ?_, ?_⟩
    · rw [hsign]
    · rw [hsign]
      exact readDigits_append hdigits hrest
  · -- Without the letter there is none, and what follows the number is no such letter either.
    have hchars : ∀ c ∈ chars.head?, ¬ (c = 'e' ∨ c = 'E') := by
      rintro c hhead hc
      obtain ⟨tail, rfl⟩ := List.head?_eq_some_iff.mp hhead
      exact hletter ⟨c, tail, rfl, hc⟩
    obtain ⟨rfl, rfl⟩ := (readExponent_of_ne hchars).mp h
    refine (readExponent_of_ne ?_).mpr ⟨rfl, rfl⟩
    cases chars with
    | nil => exact fun c hhead => not_or.mpr (hrest c hhead).2.2
    | cons c tail => exact hchars

/-! ## §4 Numbers -/

/-- A number is a sign, digits without a leading zero, a fraction and an exponent. -/
theorem readNumber_iff {chars rest : List Char} {number : Number} :
    Gives (readNumber chars) number rest ↔
      ∃ whole afterWhole fraction afterFraction exponent,
        Gives (readDigits (takeMinus chars).2.1) whole afterWhole ∧
        ¬ (whole.head? = some '0' ∧ whole.length ≠ 1) ∧
        Gives (readFraction afterWhole) fraction afterFraction ∧
        Gives (readExponent afterFraction) exponent rest ∧
        number = NumberText.value ⟨(takeMinus chars).1, whole, fraction, exponent⟩ := by
  unfold readNumber
  generalize takeMinus chars = start
  obtain ⟨negative, ⟨body, hbody⟩⟩ := start
  dsimp only
  -- Each part is read in turn: the digits, which must not begin with a further zero, then the
  -- fraction and the exponent.
  match readDigits body with
  | none => simp
  | some (whole, ⟨afterWhole, hwhole⟩) =>
    simp only [gives_some, exists_and_left, exists_eq_left', and_assoc]
    by_cases hzero : whole.head? = some '0' ∧ whole.length ≠ 1
    · simp [hzero]
    · rw [if_neg (by simpa using hzero)]
      match readFraction afterWhole with
      | none => simp
      | some (fraction, ⟨afterFraction, hfraction⟩) =>
        simp only [gives_some, exists_and_left, exists_eq_left', and_assoc, hzero]
        simp only [not_false_eq_true, true_and]
        refine (gives_map (fun exponent => NumberText.value ⟨negative, whole, fraction, exponent⟩)
          fun _ => ⟨rfl, rfl⟩).trans (exists_congr fun exponent => ?_)
        rw [and_comm, eq_comm]

theorem takeMinus_of_ne {c : Char} (h : c ≠ '-') (tail : List Char) :
    (takeMinus (c :: tail)).1 = false ∧ (takeMinus (c :: tail)).2.1 = c :: tail := by
  simp [takeMinus, h]

/-- What a number is does not depend on the text behind it. -/
theorem readNumber_append {chars rest : List Char} {number : Number}
    (h : Gives (readNumber chars) number []) (hrest : EndsNumber rest) :
    Gives (readNumber (chars ++ rest)) number rest := by
  obtain ⟨whole, afterWhole, fraction, afterFraction, exponent, hwhole, hzero, hfraction,
    hexponent, rfl⟩ := readNumber_iff.mp h
  -- Each part is read as before and leaves what it left, with `rest` behind it.
  have hne : chars ≠ [] := by
    rintro rfl
    exact gives_none hwhole
  -- A sign is taken from the number, since there is a character for it.
  have hsign : (takeMinus (chars ++ rest)).1 = (takeMinus chars).1 ∧
      (takeMinus (chars ++ rest)).2.1 = (takeMinus chars).2.1 ++ rest := by
    match chars, hne with
    | c :: chars, _ =>
      by_cases hminus : c = '-'
      · subst hminus
        exact ⟨rfl, rfl⟩
      · rw [List.cons_append]
        obtain ⟨hsign, hbody⟩ := takeMinus_of_ne hminus chars
        obtain ⟨hsign', hbody'⟩ := takeMinus_of_ne hminus (chars ++ rest)
        exact ⟨hsign'.trans hsign.symm, by rw [hbody', hbody, List.cons_append]⟩
  have hdigits := readDigits_append hwhole hrest
  refine readNumber_iff.mpr ⟨whole, _, fraction, _, exponent, hsign.2 ▸ hdigits, hzero,
    readFraction_append hfraction hrest, readExponent_append hexponent hrest, ?_⟩
  rw [hsign.1]

/-- A number begins with a digit or a minus sign. -/
theorem head_of_readNumber {chars rest : List Char} {number : Number}
    (h : Gives (readNumber chars) number rest) :
    ∃ c tail, chars = c :: tail ∧ (c.isDigit = true ∨ c = '-') := by
  -- A number has at least one digit behind its sign.
  obtain ⟨whole, afterWhole, -, -, -, hwhole, -⟩ := readNumber_iff.mp h
  match chars with
  | [] => exact absurd hwhole gives_none
  | c :: tail =>
    refine ⟨c, tail, rfl, ?_⟩
    by_cases hminus : c = '-'
    · exact .inr hminus
    · left
      rw [(takeMinus_of_ne hminus tail).2] at hwhole
      by_contra hdigit
      simp [readDigits, hdigit] at hwhole

/-! ## §5 Integers -/

/-- The digits of a number begin with a zero only if the number is zero. -/
theorem eq_zero_of_head_digitsOf {n : Nat} (h : (digitsOf n).head? = some '0') : n = 0 := by
  -- The first digit of a number of two digits or more is the first digit of its tenth.
  induction n using Nat.strongRecOn with
  | _ n ih =>
    by_cases hn : n < 10
    · have hsmall : ∀ n < 10, (digitsOf n).head? = some '0' → n = 0 := by decide
      exact hsmall n hn h
    · have hstep : digitsOf n = digitsOf (n / 10) ++ [Nat.digitChar (n % 10)] :=
        Nat.toDigits_of_base_le (by decide) (Nat.le_of_not_lt hn)
      obtain ⟨c, digits, hdigits⟩ := List.exists_cons_of_ne_nil (isDigits_digitsOf (n / 10)).1
      rw [hstep, hdigits] at h
      have hzero := ih (n / 10) (by omega) (hdigits ▸ h)
      omega

theorem readDigits_digitsOf (n : Nat) : Gives (readDigits (digitsOf n)) (digitsOf n) [] := by
  obtain ⟨hne, hall⟩ := isDigits_digitsOf n
  match digitsOf n, hne, hall with
  | c :: digits, _, hall =>
    obtain ⟨hc, hdigits⟩ := List.forall_mem_cons.mp hall
    have htake : digits.takeWhile Char.isDigit = digits := List.takeWhile_eq_self_iff.mpr hdigits
    have hdrop : digits.dropWhile Char.isDigit = [] := List.dropWhile_eq_nil_iff.mpr hdigits
    simp [readDigits, hc, htake, hdrop]

/-- The integers that a JSON text can hold as integers. -/
def FitsInteger (n : Int) : Prop := -(2 ^ 63) ≤ n ∧ n < 2 ^ 64

/-- The value of a text that is a sign and the digits of a number. -/
theorem readNumber_of_digits {chars : List Char} {n : Nat}
    (h : (takeMinus chars).2.1 = digitsOf n) :
    Gives (readNumber chars)
      (NumberText.value ⟨(takeMinus chars).1, digitsOf n, none, none⟩) [] := by
  refine readNumber_iff.mpr ⟨digitsOf n, [], none, [], none, h ▸ readDigits_digitsOf n, ?_,
    (readFraction_of_ne (by simp)).mpr ⟨rfl, rfl⟩, (readExponent_of_ne (by simp)).mpr ⟨rfl, rfl⟩,
    rfl⟩
  rintro ⟨hhead, hlength⟩
  obtain rfl := eq_zero_of_head_digitsOf hhead
  exact hlength rfl

/-- An integer that sixty-four bits hold is read back. -/
theorem readNumber_intChars {n : Int} (h : FitsInteger n) :
    Gives (readNumber (intChars n)) (.integer n) [] := by
  obtain ⟨hlow, hhigh⟩ := h
  -- A negative number is written as its sign and the digits of its magnitude.
  by_cases hneg : n < 0
  · have hne : n.natAbs ≠ 0 := by omega
    have hle : n.natAbs ≤ Nat.pow 2 63 := show n.natAbs ≤ 2 ^ 63 by omega
    have hvalue : NumberText.value ⟨true, digitsOf n.natAbs, none, none⟩ =
        .integer (-(n.natAbs : Int)) := by
      simp [NumberText.value, digitsValue_digitsOf, hne, hle]
    have habs : -(n.natAbs : Int) = n := by omega
    rw [habs] at hvalue
    rw [intChars, if_pos hneg, ← hvalue]
    exact readNumber_of_digits rfl
  · have hle : n.natAbs ≤ maxSignificand := show n.natAbs ≤ 2 ^ 64 - 1 by omega
    have hvalue : NumberText.value ⟨false, digitsOf n.natAbs, none, none⟩ =
        .integer (n.natAbs : Int) := by
      simp [NumberText.value, digitsValue_digitsOf, hle]
    have habs : (n.natAbs : Int) = n := by omega
    rw [habs] at hvalue
    -- The digits do not begin with a minus sign.
    obtain ⟨c, digits, hdigits⟩ := List.exists_cons_of_ne_nil (isDigits_digitsOf n.natAbs).1
    have hminus : c ≠ '-' := by
      rintro rfl
      have := (isDigits_digitsOf n.natAbs).2 '-' (hdigits ▸ List.mem_cons_self)
      contradiction
    obtain ⟨hsign, hbody⟩ := takeMinus_of_ne hminus digits
    rw [← hdigits] at hsign hbody
    rw [intChars, if_neg hneg, ← hvalue, ← hsign]
    exact readNumber_of_digits hbody

/-! ## §6 Doubles -/

/-- The text of the double is read as that double. -/
def ReadsBack (x : Float) : Prop := Gives (readNumber (floatChars x)) (.float x) []

/-- Whether a double is read back can be computed. -/
theorem readsBack_iff (x : Float) :
    ReadsBack x ↔ (readNumber (floatChars x)).any (fun (number, rest) =>
      rest.1.isEmpty && match number with
        | .float y => decide (y.toModel = x.toModel)
        | _ => false) = true := by
  have hmodel : ∀ y : Float, y = x ↔ y.toModel = x.toModel := fun y =>
    ⟨congrArg Float.toModel, congrArg Float.ofModel⟩
  unfold ReadsBack
  match readNumber (floatChars x) with
  | none => simp
  | some (.integer n, ⟨rest, h⟩) => simp
  | some (.outOfRange, ⟨rest, h⟩) => simp
  | some (.float y, ⟨rest, h⟩) => simp [hmodel, and_comm]

instance (x : Float) : Decidable (ReadsBack x) := decidable_of_iff _ (readsBack_iff x).symm

/-- The text of a half is read back. -/
example : ReadsBack 0.5 := by decide +kernel

end BandedReport.Json
