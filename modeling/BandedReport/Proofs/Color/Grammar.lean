import BandedReport.Proofs.Color
import BandedReport.Proofs.Decimal.Numerals

/-!
# A grammar of colors

A color is spelled with hexadecimal digits, as a function of three decimal numbers, or by its name.
`Spelling` holds what such a grammar may be more or less strict about: the marks in front of
hexadecimal digits, the signs in front of numbers, and the letter case of the function's word.

* `ofHexChars?_eq_some_iff`, `decimalComponent?_eq_some_iff_number` and `ofFunction?_eq_some_iff`
  say what the parts of the reader accept;
* `readChars?_eq_some_iff` puts them together: the texts that are read, and the colors they are read
  as, are those of the grammar `Spelling.accepted`.
-/

namespace BandedReport.Color

/-! ## §1 Grammars -/

/-- What stands in front of the parts of a color. -/
structure Spelling where
  /-- Marks in front of hexadecimal digits. -/
  Mark : List Char → Prop
  /-- Signs in front of a number. -/
  Sign : List Char → Prop
  /-- Words in front of three numbers. -/
  Word : List Char → Prop

namespace Spelling

/-- Colors as they are documented: one `#` or none, no sign, and `rgb(` in any letter case. -/
def documented : Spelling where
  Mark marks := marks = [] ∨ marks = ['#']
  Sign sign := sign = []
  Word word := asciiLower word = ['r', 'g', 'b', '(']

/-- Colors as they are read: any number of `#`, a plus sign or none, and `rgb(` in small letters or
in capitals. -/
def accepted : Spelling where
  Mark marks := ∀ c ∈ marks, c = '#'
  Sign sign := sign = [] ∨ sign = ['+']
  Word word := word = ['r', 'g', 'b', '('] ∨ word = ['R', 'G', 'B', '(']

/-- Two characters that are a component: two digits, or a sign and a digit. -/
inductive Pair (s : Spelling) : Char → Char → Nat → Prop where
  | digits {high low : Char} {m n : Nat} :
      hexValue? high = some m → hexValue? low = some n → Pair s high low (16 * m + n)
  | signed {low : Char} {n : Nat} : s.Sign ['+'] → hexValue? low = some n → Pair s '+' low n

/-- Three, six or eight characters that are the components of a color, its opacity first. -/
inductive Digits (s : Spelling) : List Char → Color → Prop where
  | short {r g b : Char} {red green blue : Nat} :
      hexValue? r = some red → hexValue? g = some green → hexValue? b = some blue →
      Digits s [r, g, b] (rgb (.ofNat (17 * red)) (.ofNat (17 * green)) (.ofNat (17 * blue)))
  | long {r₁ r₂ g₁ g₂ b₁ b₂ : Char} {red green blue : Nat} :
      s.Pair r₁ r₂ red → s.Pair g₁ g₂ green → s.Pair b₁ b₂ blue →
      Digits s [r₁, r₂, g₁, g₂, b₁, b₂] (rgb (.ofNat red) (.ofNat green) (.ofNat blue))
  | withAlpha {a₁ a₂ r₁ r₂ g₁ g₂ b₁ b₂ : Char} {alpha red green blue : Nat} :
      s.Pair a₁ a₂ alpha → s.Pair r₁ r₂ red → s.Pair g₁ g₂ green → s.Pair b₁ b₂ blue →
      Digits s [a₁, a₂, r₁, r₂, g₁, g₂, b₁, b₂]
        ⟨.ofNat red, .ofNat green, .ofNat blue, .ofNat alpha⟩

/-- A decimal number up to 255, with blanks around it. -/
inductive Number (s : Spelling) : List Char → Nat → Prop where
  | mk {before sign digits after : List Char} :
      (∀ c ∈ before, isBlank c = true) → s.Sign sign → IsDigits digits →
      digitsValue digits ≤ 255 → (∀ c ∈ after, isBlank c = true) →
      Number s (before ++ (sign ++ digits ++ after)) (digitsValue digits)

/-- A text is a color. -/
inductive Denotes (s : Spelling) : List Char → Color → Prop where
  | hexadecimal {marks digits : List Char} {c : Color} :
      s.Mark marks → s.Digits digits c → Denotes s (marks ++ digits) c
  | function {word r g b : List Char} {red green blue : Nat} :
      s.Word word → s.Number r red → s.Number g green → s.Number b blue →
      Denotes s (word ++ (r ++ ',' :: (g ++ ',' :: b) ++ [')']))
        (rgb (.ofNat red) (.ofNat green) (.ofNat blue))
  | name {chars : List Char} {c : Color} :
      named.lookup (String.ofList (asciiLower chars)) = some c → Denotes s chars c

end Spelling

open Spelling

/-! ## §2 Characters -/

theorem toLower_of_not_capital {c : Char} (h : ¬ (c.val ≥ 'A'.val ∧ c.val ≤ 'Z'.val)) :
    c.toLower = c :=
  dif_neg h

/-- What is the same for a capital and its small letter does not depend on letter case. -/
theorem apply_toLower {α : Type} (f : Char → α)
    (h : ∀ k < 26, f (Char.ofNat (65 + k)).toLower = f (Char.ofNat (65 + k))) (c : Char) :
    f c.toLower = f c := by
  by_cases hcapital : c.val ≥ 'A'.val ∧ c.val ≤ 'Z'.val
  · have hlow : 65 ≤ c.toNat := hcapital.1
    have hhigh : c.toNat ≤ 90 := hcapital.2
    have hc : Char.ofNat (65 + (c.toNat - 65)) = c := by
      rw [Nat.add_sub_cancel' hlow, Char.ofNat_toNat]
    rw [← hc]
    exact h _ (by omega)
  · rw [toLower_of_not_capital hcapital]

@[simp] theorem hexValue?_toLower (c : Char) : hexValue? c.toLower = hexValue? c :=
  apply_toLower hexValue? (by decide) c

/-- The signs of the spellings are no letters. -/
@[simp] theorem toLower_beq {mark : Char} (hmark : mark ∈ ['#', '+', ',', ')']) (c : Char) :
    (c.toLower == mark) = (c == mark) := by
  simp only [List.mem_cons, List.not_mem_nil, or_false] at hmark
  rcases hmark with rfl | rfl | rfl | rfl
  all_goals exact apply_toLower (· == _) (by decide) c

/-- A character that hexadecimal digits and what stands in front of them are made of. -/
def IsHexChar (c : Char) : Prop := (hexValue? c).isSome = true ∨ c = '+' ∨ c = '#'

instance : DecidablePred IsHexChar := fun _ => inferInstanceAs (Decidable (_ ∨ _ ∨ _))

theorem isHexChar_toLower {c : Char} : IsHexChar c.toLower ↔ IsHexChar c := by
  have hplus : (c.toLower == '+') = (c == '+') := toLower_beq (by simp) c
  have hmark : (c.toLower == '#') = (c == '#') := toLower_beq (by simp) c
  rw [Bool.eq_iff_iff, beq_iff_eq, beq_iff_eq] at hplus hmark
  rw [IsHexChar, IsHexChar, hexValue?_toLower, hplus, hmark]

/-! ## §3 Hexadecimal digits -/

theorem component?_eq_some_iff {first second : Char} {n : UInt8} :
    component? first second = some n ↔ ∃ k, accepted.Pair first second k ∧ UInt8.ofNat k = n := by
  constructor
  · intro h
    unfold component? at h
    split at h
    · -- A plus sign takes the place of the first digit.
      rename_i hplus
      obtain rfl : first = '+' := by simpa using hplus
      obtain ⟨k, hk, rfl⟩ := Option.map_eq_some_iff.mp h
      exact ⟨k, .signed (.inr rfl) hk, rfl⟩
    · obtain ⟨high, hhigh, h⟩ := Option.bind_eq_some_iff.mp h
      obtain ⟨low, hlow, h⟩ := Option.bind_eq_some_iff.mp h
      exact ⟨_, .digits hhigh hlow, Option.some.inj h⟩
  · rintro ⟨_, hpair, rfl⟩
    cases hpair with
    | digits hhigh hlow =>
      -- No digit is a plus sign, so the two forms do not meet.
      have hplus : (first == '+') = false := by
        rw [beq_eq_false_iff_ne]
        rintro rfl
        rw [show hexValue? '+' = none from rfl] at hhigh
        contradiction
      simp [component?, hplus, hhigh, hlow]
    | signed _ hlow => simp [component?, hlow]

theorem shortComponent?_eq_some_iff {digit : Char} {n : UInt8} :
    shortComponent? digit = some n ↔ ∃ k, hexValue? digit = some k ∧ UInt8.ofNat (17 * k) = n :=
  Option.map_eq_some_iff

theorem Spelling.Pair.isSome_or {s : Spelling} {first second : Char} {n : Nat}
    (h : s.Pair first second n) :
    ((hexValue? first).isSome = true ∨ first = '+') ∧ (hexValue? second).isSome = true := by
  cases h with
  | digits hhigh hlow => simp [hhigh, hlow]
  | signed _ hlow => simp [hlow]

theorem Spelling.Digits.isSome_or {s : Spelling} {digits : List Char} {c : Color}
    (h : s.Digits digits c) : ∀ d ∈ digits, (hexValue? d).isSome = true ∨ d = '+' := by
  cases h with
  | short hr hg hb => simp [hr, hg, hb]
  | long hr hg hb => simp [hr.isSome_or, hg.isSome_or, hb.isSome_or]
  | withAlpha ha hr hg hb => simp [ha.isSome_or, hr.isSome_or, hg.isSome_or, hb.isSome_or]

/-- Marks in front of digits are dropped. -/
theorem dropWhile_marks {marks digits : List Char} {c : Color} (hmarks : accepted.Mark marks)
    (hdigits : accepted.Digits digits c) :
    (marks ++ digits).dropWhile (· == '#') = digits := by
  rw [List.dropWhile_append_of_pos fun d hd => beq_iff_eq.mpr (hmarks d hd)]
  refine dropWhile_of_forall fun d hd => beq_eq_false_iff_ne.mpr ?_
  rintro rfl
  rcases hdigits.isSome_or _ hd with h | h <;> exact absurd h (by decide)

/-- Hexadecimal digits are read behind any number of marks. -/
theorem ofHexChars?_eq_some_iff {chars : List Char} {c : Color} :
    ofHexChars? chars = some c ↔ ∃ marks digits,
      accepted.Mark marks ∧ accepted.Digits digits c ∧ marks ++ digits = trimChars chars := by
  constructor
  · intro h
    -- The marks in front are taken off, and the number of digits decides the form.
    refine ⟨(trimChars chars).takeWhile (· == '#'), (trimChars chars).dropWhile (· == '#'),
      fun d hd => by simpa using List.mem_takeWhile_imp hd, ?_, List.takeWhile_append_dropWhile⟩
    unfold ofHexChars? at h
    split at h
    · rename_i heq
      simp only [bind, Option.bind_eq_some_iff, pure, Option.some.injEq,
        shortComponent?_eq_some_iff] at h
      obtain ⟨_, ⟨r, hr, rfl⟩, _, ⟨g, hg, rfl⟩, _, ⟨b, hb, rfl⟩, rfl⟩ := h
      rw [heq]
      exact .short hr hg hb
    · rename_i heq
      simp only [bind, Option.bind_eq_some_iff, pure, Option.some.injEq,
        component?_eq_some_iff] at h
      obtain ⟨_, ⟨r, hr, rfl⟩, _, ⟨g, hg, rfl⟩, _, ⟨b, hb, rfl⟩, rfl⟩ := h
      rw [heq]
      exact .long hr hg hb
    · rename_i heq
      simp only [bind, Option.bind_eq_some_iff, pure, Option.some.injEq,
        component?_eq_some_iff] at h
      obtain ⟨_, ⟨a, ha, rfl⟩, _, ⟨r, hr, rfl⟩, _, ⟨g, hg, rfl⟩, _, ⟨b, hb, rfl⟩, rfl⟩ := h
      rw [heq]
      exact .withAlpha ha hr hg hb
    · contradiction
  · -- The other way round, each form is read by its own number of digits.
    rintro ⟨marks, digits, hmarks, hdigits, htrim⟩
    rw [ofHexChars?, ← htrim, dropWhile_marks hmarks hdigits]
    have hpair : ∀ {first second n}, accepted.Pair first second n →
        component? first second = some (.ofNat n) := fun h => component?_eq_some_iff.mpr ⟨_, h, rfl⟩
    cases hdigits with
    | short hr hg hb => simp [shortComponent?, hr, hg, hb]
    | long hr hg hb => simp [hpair hr, hpair hg, hpair hb]
    | withAlpha ha hr hg hb => simp [hpair ha, hpair hr, hpair hg, hpair hb]

/-! ## §4 Numbers -/

/-- A text without a plus sign in front. -/
def withoutPlus : List Char → List Char
  | '+' :: rest => rest
  | rest => rest

theorem withoutPlus_eq_self {chars : List Char} (h : chars.head? ≠ some '+') :
    withoutPlus chars = chars := by
  unfold withoutPlus
  split
  · exact absurd rfl h
  · rfl

/-- A component is one or more digits, behind a plus sign or none. -/
theorem decimalComponent?_eq_some_iff {chars : List Char} {n : UInt8} :
    decimalComponent? chars = some n ↔
      IsDigits (withoutPlus (trimChars chars)) ∧ digitsValue (withoutPlus (trimChars chars)) ≤ 255 ∧
        UInt8.ofNat (digitsValue (withoutPlus (trimChars chars))) = n := by
  change (let digits := withoutPlus (trimChars chars)
    if digits.isEmpty || !digits.all Char.isDigit || 255 < digitsValue digits then none
    else some (UInt8.ofNat (digitsValue digits))) = some n ↔ _
  generalize withoutPlus (trimChars chars) = digits
  simp [IsDigits, and_assoc]

/-- What is left without a plus sign had one in front, or none. -/
theorem exists_sign (chars : List Char) :
    ∃ sign, accepted.Sign sign ∧ sign ++ withoutPlus chars = chars := by
  unfold withoutPlus
  split
  · exact ⟨['+'], .inr rfl, rfl⟩
  · exact ⟨[], .inl rfl, rfl⟩

theorem withoutPlus_sign {sign digits : List Char} (hsign : accepted.Sign sign)
    (hdigits : IsDigits digits) : withoutPlus (sign ++ digits) = digits := by
  rcases hsign with rfl | rfl
  · refine withoutPlus_eq_self fun hplus => ?_
    exact absurd (hdigits.2 '+' (List.mem_of_mem_head? hplus)) (by decide)
  · rfl

/-- A sign and digits have no blanks or commas. -/
theorem not_isBlank_number {sign digits : List Char} (hsign : accepted.Sign sign)
    (hdigits : IsDigits digits) : ∀ c ∈ sign ++ digits, isBlank c = false ∧ c ≠ ',' := by
  intro c hc
  rcases List.mem_append.mp hc with hc | hc
  · rcases hsign with rfl | rfl
    · contradiction
    · rw [List.mem_singleton.mp hc]
      decide
  · exact forall_isDigit (p := fun c => isBlank c = false ∧ c ≠ ',') (by decide) (hdigits.2 c hc)

theorem decimalComponent?_eq_some_iff_number {chars : List Char} {n : UInt8} :
    decimalComponent? chars = some n ↔ ∃ k, accepted.Number chars k ∧ UInt8.ofNat k = n := by
  rw [decimalComponent?_eq_some_iff]
  constructor
  · rintro ⟨hdigits, hvalue, hn⟩
    -- Blanks are taken off at both ends, then at most one plus sign.
    obtain ⟨before, after, hbefore, hafter, hchars⟩ := exists_around_trimChars chars
    obtain ⟨sign, hsign, hcore⟩ := exists_sign (trimChars chars)
    have hnumber := Number.mk hbefore hsign hdigits hvalue hafter
    rw [hcore, hchars] at hnumber
    exact ⟨_, hnumber, hn⟩
  · rintro ⟨_, ⟨hbefore, hsign, hdigits, hvalue, hafter⟩, rfl⟩
    rename_i sign digits after
    -- What stands between the blanks has no blank of its own.
    have hne : sign ++ digits ≠ [] := List.append_ne_nil_of_right_ne_nil _ hdigits.1
    have hsolid := fun c hc => (not_isBlank_number hsign hdigits c hc).1
    rw [trimChars_around hbefore hne hsolid hafter, withoutPlus_sign hsign hdigits]
    exact ⟨hdigits, hvalue, rfl⟩

theorem Spelling.Number.comma_notMem {chars : List Char} {n : Nat}
    (h : accepted.Number chars n) : ',' ∉ chars := by
  obtain ⟨hbefore, hsign, hdigits, -, hafter⟩ := h
  rename_i sign digits after
  intro hcomma
  rcases List.mem_append.mp hcomma with hcomma | hcomma
  · exact absurd (hbefore _ hcomma) (by decide)
  · rcases List.mem_append.mp hcomma with hcomma | hcomma
    · exact (not_isBlank_number hsign hdigits _ hcomma).2 rfl
    · exact absurd (hafter _ hcomma) (by decide)

/-! ## §5 Functions -/

theorem splitCommas_ne_nil (chars : List Char) : splitCommas chars ≠ [] := by
  cases chars with
  | nil => exact nofun
  | cons c rest =>
    unfold splitCommas
    split
    · exact nofun
    · split <;> exact nofun

/-- The first part ends at the first comma. -/
theorem splitCommas_append {part : List Char} (h : ',' ∉ part) (rest : List Char) :
    splitCommas (part ++ ',' :: rest) = part :: splitCommas rest := by
  induction part with
  | nil => rfl
  | cons c part ih =>
    rw [List.mem_cons, not_or] at h
    rw [List.cons_append, splitCommas, if_neg (by simpa using Ne.symm h.1), ih h.2]

theorem splitCommas_of_notMem {chars : List Char} (h : ',' ∉ chars) :
    splitCommas chars = [chars] := by
  induction chars with
  | nil => rfl
  | cons c chars ih =>
    rw [List.mem_cons, not_or] at h
    rw [splitCommas, if_neg (by simpa using Ne.symm h.1), ih h.2]

/-- The parts are what stands between the commas. -/
theorem exists_of_splitCommas {chars part : List Char} {parts : List (List Char)}
    (h : splitCommas chars = part :: parts) :
    ',' ∉ part ∧ (parts = [] ∧ part = chars ∨
      ∃ rest, part ++ ',' :: rest = chars ∧ splitCommas rest = parts) := by
  by_cases hcomma : ',' ∈ chars
  · obtain ⟨front, rest, rfl, hfront⟩ := List.eq_append_cons_of_mem hcomma
    rw [splitCommas_append hfront] at h
    obtain ⟨rfl, hrest⟩ := List.cons.inj h
    exact ⟨hfront, .inr ⟨rest, rfl, hrest⟩⟩
  · rw [splitCommas_of_notMem hcomma] at h
    obtain ⟨rfl, hparts⟩ := List.cons.inj h
    exact ⟨hcomma, .inl ⟨hparts.symm, rfl⟩⟩

theorem splitCommas_eq_three_iff {chars r g b : List Char} :
    splitCommas chars = [r, g, b] ↔
      ',' ∉ r ∧ ',' ∉ g ∧ ',' ∉ b ∧ r ++ ',' :: (g ++ ',' :: b) = chars := by
  constructor
  · intro h
    -- The text is split at its first comma, twice, and the last piece has none.
    obtain ⟨hr, ⟨hnil, -⟩ | ⟨rest, rfl, hrest⟩⟩ := exists_of_splitCommas h
    · contradiction
    obtain ⟨hg, ⟨hnil, -⟩ | ⟨last, rfl, hlast⟩⟩ := exists_of_splitCommas hrest
    · contradiction
    obtain ⟨hb, ⟨-, rfl⟩ | ⟨more, -, hmore⟩⟩ := exists_of_splitCommas hlast
    · exact ⟨hr, hg, hb, rfl⟩
    · exact absurd hmore (splitCommas_ne_nil more)
  · rintro ⟨hr, hg, hb, rfl⟩
    rw [splitCommas_append hr, splitCommas_append hg, splitCommas_of_notMem hb]

/-- The color of three components. -/
def ofParts? : List (List Char) → Option Color
  | [r, g, b] => do
    return rgb (← decimalComponent? r) (← decimalComponent? g) (← decimalComponent? b)
  | _ => none

theorem ofParts?_eq_some_iff {parts : List (List Char)} {c : Color} :
    ofParts? parts = some c ↔ ∃ r g b red green blue, parts = [r, g, b] ∧
      accepted.Number r red ∧ accepted.Number g green ∧ accepted.Number b blue ∧
      rgb (.ofNat red) (.ofNat green) (.ofNat blue) = c := by
  constructor
  · -- There are three pieces, and each of them is read as a decimal component.
    intro h
    unfold ofParts? at h
    split at h
    · simp only [bind, Option.bind_eq_some_iff, pure, Option.some.injEq,
        decimalComponent?_eq_some_iff_number] at h
      obtain ⟨_, ⟨red, hr, rfl⟩, _, ⟨green, hg, rfl⟩, _, ⟨blue, hb, rfl⟩, rfl⟩ := h
      exact ⟨_, _, _, red, green, blue, rfl, hr, hg, hb, rfl⟩
    · contradiction
  · rintro ⟨r, g, b, red, green, blue, rfl, hr, hg, hb, rfl⟩
    have hnumber : ∀ {chars n}, accepted.Number chars n →
        decimalComponent? chars = some (.ofNat n) :=
      fun h => decimalComponent?_eq_some_iff_number.mpr ⟨_, h, rfl⟩
    simp [ofParts?, hnumber hr, hnumber hg, hnumber hb]

theorem ofFunction?_of_word {word : List Char} (hword : accepted.Word word) (inner : List Char) :
    ofFunction? (word ++ inner) =
      if inner.getLast? = some ')' then ofParts? (splitCommas inner.dropLast) else none := by
  rcases hword with rfl | rfl
  all_goals
    simp [ofFunction?]
    rfl

theorem word_of_ofFunction? {chars : List Char} {c : Color} (h : ofFunction? chars = some c) :
    accepted.Word (chars.take 4) := by
  by_contra hword
  simp only [accepted, not_or] at hword
  simp [ofFunction?, hword] at h

/-- A function is a word, three numbers with commas between them, and a parenthesis. -/
theorem ofFunction?_eq_some_iff {chars : List Char} {c : Color} :
    ofFunction? chars = some c ↔ ∃ word r g b red green blue, accepted.Word word ∧
      accepted.Number r red ∧ accepted.Number g green ∧ accepted.Number b blue ∧
      word ++ (r ++ ',' :: (g ++ ',' :: b) ++ [')']) = chars ∧
      rgb (.ofNat red) (.ofNat green) (.ofNat blue) = c := by
  constructor
  · intro h
    have hword := word_of_ofFunction? h
    rw [← List.take_append_drop 4 chars, ofFunction?_of_word hword] at h
    -- Behind the word stands the closing parenthesis; what is between it and the word is split.
    split at h
    · rename_i hlast
      obtain ⟨r, g, b, red, green, blue, hparts, hr, hg, hb, hc⟩ := ofParts?_eq_some_iff.mp h
      obtain ⟨-, -, -, hinner⟩ := splitCommas_eq_three_iff.mp hparts
      refine ⟨chars.take 4, r, g, b, red, green, blue, hword, hr, hg, hb, ?_, hc⟩
      rw [hinner, List.dropLast_append_getLast? _ hlast, List.take_append_drop]
    · contradiction
  · -- The other way round, the last character is the parenthesis, and the commas split the rest.
    rintro ⟨word, r, g, b, red, green, blue, hword, hr, hg, hb, rfl, rfl⟩
    rw [ofFunction?_of_word hword, List.getLast?_concat, if_pos rfl, List.dropLast_concat]
    refine ofParts?_eq_some_iff.mpr ⟨r, g, b, red, green, blue, ?_, hr, hg, hb, rfl⟩
    exact splitCommas_eq_three_iff.mpr ⟨hr.comma_notMem, hg.comma_notMem, hb.comma_notMem, rfl⟩

/-! ## §6 Colors -/

/-- The word of a function begins with a letter that no hexadecimal spelling has. -/
theorem exists_not_isHexChar_of_word {chars : List Char}
    (h : asciiLower (chars.take 4) = ['r', 'g', 'b', '(']) : ∃ c ∈ chars, ¬ IsHexChar c := by
  cases chars with
  | nil => contradiction
  | cons c rest =>
    have hc : c.toLower = 'r' := (List.cons.inj h).1
    refine ⟨c, List.mem_cons_self, ?_⟩
    rw [← isHexChar_toLower, hc]
    decide

/-- What a check says of the names of the table holds of a text that is read as one of them. -/
theorem of_lookup_named {p : List Char → Bool} {chars : List Char} {c : Color}
    (hall : named.all (p ·.1.toList) = true)
    (h : named.lookup (String.ofList (asciiLower chars)) = some c) :
    p (asciiLower chars) = true := by
  obtain ⟨front, back, hnamed, -⟩ := List.lookup_eq_some_iff.mp h
  have hentry := List.all_eq_true.mp hall (String.ofList (asciiLower chars), c) (by simp [hnamed])
  rwa [String.toList_ofList] at hentry

/-- A name has a letter that no hexadecimal spelling has. -/
theorem exists_not_isHexChar_of_lookup {chars : List Char} {c : Color}
    (h : named.lookup (String.ofList (asciiLower chars)) = some c) :
    ∃ d ∈ chars, ¬ IsHexChar d := by
  have hany := of_lookup_named (p := (·.any fun d => !decide (IsHexChar d))) (by decide +kernel) h
  obtain ⟨d, hd, hhex⟩ := List.any_eq_true.mp hany
  obtain ⟨e, he, rfl⟩ := List.mem_map.mp hd
  exact ⟨e, he, fun h => by simp [isHexChar_toLower.mpr h] at hhex⟩

/-- A name has no mark in front. -/
theorem head?_ne_mark_of_lookup {chars : List Char} {c : Color}
    (h : named.lookup (String.ofList (asciiLower chars)) = some c) : chars.head? ≠ some '#' := by
  have hhead := of_lookup_named (p := (·.head? != some '#')) (by decide +kernel) h
  intro hmark
  rw [asciiLower, List.head?_map, hmark] at hhead
  cases hhead

/-- A name does not begin with the word of a function. -/
theorem asciiLower_take_ne_word_of_lookup {chars : List Char} {c : Color}
    (h : named.lookup (String.ofList (asciiLower chars)) = some c) :
    asciiLower (chars.take 4) ≠ ['r', 'g', 'b', '('] := by
  have hword := of_lookup_named (p := (·.take 4 != ['r', 'g', 'b', '('])) (by decide +kernel) h
  rw [asciiLower, List.map_take]
  exact bne_iff_ne.mp hword

theorem isHexChar_of_hexadecimal {marks digits : List Char} {c : Color}
    (hmarks : accepted.Mark marks) (hdigits : accepted.Digits digits c) :
    ∀ d ∈ marks ++ digits, IsHexChar d := by
  intro d hd
  rcases List.mem_append.mp hd with hd | hd
  · exact .inr (.inr (hmarks d hd))
  · exact (hdigits.isSome_or d hd).imp_right .inl

/-- A function begins with its word. -/
theorem asciiLower_take_word {word rest : List Char} (h : accepted.Word word) :
    asciiLower ((word ++ rest).take 4) = ['r', 'g', 'b', '('] := by
  rcases h with rfl | rfl <;> rfl

theorem take_word {word rest : List Char} (h : accepted.Word word) :
    (word ++ rest).take 4 = word := by
  rcases h with rfl | rfl <;> rfl

/-- A text is read as the color that it denotes. -/
theorem readChars?_eq_some_iff {chars : List Char} {c : Color} :
    readChars? chars = some c ↔ accepted.Denotes (trimChars chars) c := by
  rw [readChars?]
  -- Blanks at the ends are taken off a second time for a hexadecimal form, which changes nothing.
  have hbody : trimChars (trimChars chars) = trimChars chars := trimChars_trimChars chars
  generalize trimChars chars = body at *
  rw [show (asciiLower body).take 4 = asciiLower (body.take 4) from List.map_take.symm]
  constructor
  · intro h
    have hexadecimal : ofHexChars? body = some c → accepted.Denotes body c := by
      intro h
      obtain ⟨marks, digits, hmarks, hdigits, heq⟩ := ofHexChars?_eq_some_iff.mp h
      rw [← hbody, ← heq]
      exact .hexadecimal hmarks hdigits
    -- The reader asks for the mark, then for the word, then for a name.
    split at h
    · exact hexadecimal h
    · split at h
      · obtain ⟨word, r, g, b, red, green, blue, hword, hr, hg, hb, rfl, rfl⟩ :=
          ofFunction?_eq_some_iff.mp h
        exact .function hword hr hg hb
      · split at h
        · rename_i hname
          rw [h] at hname
          exact .name hname
        · exact hexadecimal h
  · intro h
    cases h with
    | hexadecimal hmarks hdigits =>
      rename_i marks digits
      have hread : ofHexChars? (marks ++ digits) = some c :=
        ofHexChars?_eq_some_iff.mpr ⟨marks, digits, hmarks, hdigits, hbody.symm⟩
      -- Hexadecimal digits spell neither the word nor a name, so no earlier form takes them.
      have hchars := isHexChar_of_hexadecimal hmarks hdigits
      have hword : asciiLower ((marks ++ digits).take 4) ≠ ['r', 'g', 'b', '('] := by
        intro hword
        obtain ⟨d, hd, hhex⟩ := exists_not_isHexChar_of_word hword
        exact hhex (hchars d hd)
      have hname : named.lookup (String.ofList (asciiLower (marks ++ digits))) = none := by
        rw [Option.eq_none_iff_forall_ne_some]
        intro color hname
        obtain ⟨d, hd, hhex⟩ := exists_not_isHexChar_of_lookup hname
        exact hhex (hchars d hd)
      simp [hread, hword, hname]
    | function hword hr hg hb =>
      rename_i word r g b red green blue
      -- The word of a function is not the mark.
      have hhead : (word ++ (r ++ ',' :: (g ++ ',' :: b) ++ [')'])).head? ≠ some '#' := by
        rcases hword with rfl | rfl <;> simp
      rw [if_neg (by simpa using hhead), if_pos (by simp [asciiLower_take_word hword])]
      exact ofFunction?_eq_some_iff.mpr
        ⟨word, r, g, b, red, green, blue, hword, hr, hg, hb, rfl, rfl⟩
    | name hname =>
      -- A name has neither the mark nor the word in front.
      have hhead := head?_ne_mark_of_lookup hname
      have hword := asciiLower_take_ne_word_of_lookup hname
      simp [hhead, hword, hname]

end BandedReport.Color
