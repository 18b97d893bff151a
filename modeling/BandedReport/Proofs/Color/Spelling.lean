import BandedReport.Proofs.Color.Grammar

/-!
# The spellings of a color

The documented spellings of a color are a grammar that does not depend on letter case. The reader
has a grammar of its own, which is more liberal about signs and marks, and stricter about the word
in front of three numbers.

* `readChars?_asciiLower` says that letter case makes no difference, but for that word;
* `Spelling.Denotes.of_documented` and `Spelling.Denotes.documented_or` compare the two grammars;
* `read?_spellings` puts everything together.
-/

namespace BandedReport.Color

open Spelling

/-! ## §1 Letter case -/

@[simp] theorem isBlank_toLower (c : Char) : isBlank c.toLower = isBlank c :=
  apply_toLower isBlank (by decide) c

@[simp] theorem isDigit_toLower (c : Char) : c.toLower.isDigit = c.isDigit :=
  apply_toLower Char.isDigit (by decide) c

theorem head?_asciiLower {mark : Char} (hmark : mark ∈ ['#', '+', ',', ')']) (chars : List Char) :
    (asciiLower chars).head? = some mark ↔ chars.head? = some mark := by
  cases chars with
  | nil => rfl
  | cons c rest =>
    have hc := toLower_beq hmark c
    rw [Bool.eq_iff_iff, beq_iff_eq, beq_iff_eq] at hc
    simpa [asciiLower] using hc

theorem trimChars_asciiLower (chars : List Char) :
    trimChars (asciiLower chars) = asciiLower (trimChars chars) :=
  trimChars_map isBlank_toLower chars

theorem component?_toLower (first second : Char) :
    component? first.toLower second.toLower = component? first second := by
  simp [component?, toLower_beq]

theorem shortComponent?_toLower (digit : Char) :
    shortComponent? digit.toLower = shortComponent? digit := by
  simp [shortComponent?]

theorem ofHexChars?_asciiLower (chars : List Char) :
    ofHexChars? (asciiLower chars) = ofHexChars? chars := by
  have hmark : (fun c => c == '#') ∘ Char.toLower = fun c => c == '#' :=
    funext fun c => toLower_beq (by simp) c
  rw [ofHexChars?, ofHexChars?, trimChars_asciiLower, asciiLower, List.dropWhile_map, hmark]
  generalize (trimChars chars).dropWhile (· == '#') = digits
  -- The digits are as many as the reader looks at, fewer or more.
  rcases digits with
    _ | ⟨_, _ | ⟨_, _ | ⟨_, _ | ⟨_, _ | ⟨_, _ | ⟨_, _ | ⟨_, _ | ⟨_, _ | ⟨_, _⟩⟩⟩⟩⟩⟩⟩⟩⟩
  all_goals
    simp only [List.map_cons, List.map_nil, shortComponent?_toLower, component?_toLower]

theorem splitCommas_asciiLower (chars : List Char) :
    splitCommas (asciiLower chars) = (splitCommas chars).map asciiLower := by
  induction chars with
  | nil => rfl
  | cons c rest ih =>
    have hcons : asciiLower (c :: rest) = c.toLower :: asciiLower rest := rfl
    rw [hcons, splitCommas, splitCommas, toLower_beq (by simp), ih]
    split
    · rfl
    · cases splitCommas rest <;> rfl

theorem withoutPlus_asciiLower (chars : List Char) :
    withoutPlus (asciiLower chars) = asciiLower (withoutPlus chars) := by
  by_cases hplus : chars.head? = some '+'
  · obtain ⟨rest, rfl⟩ := List.head?_eq_some_iff.mp hplus
    rfl
  · rw [withoutPlus_eq_self hplus, withoutPlus_eq_self]
    rwa [ne_eq, head?_asciiLower (by simp)]

theorem isDigits_asciiLower {chars : List Char} : IsDigits (asciiLower chars) ↔ IsDigits chars := by
  simp [IsDigits, asciiLower]

theorem asciiLower_of_isDigits {chars : List Char} (h : IsDigits chars) :
    asciiLower chars = chars := by
  rw [asciiLower]
  conv_rhs => rw [← List.map_id chars]
  refine List.map_congr_left fun c hc => ?_
  have hhigh : c.toNat ≤ 57 := (Char.isDigit_iff_toNat.mp (h.2 c hc)).2
  refine toLower_of_not_capital fun hcapital => ?_
  have hlow : 65 ≤ c.toNat := hcapital.1
  omega

theorem decimalComponent?_asciiLower (chars : List Char) :
    decimalComponent? (asciiLower chars) = decimalComponent? chars := by
  refine Option.ext fun n => ?_
  rw [decimalComponent?_eq_some_iff, decimalComponent?_eq_some_iff, trimChars_asciiLower,
    withoutPlus_asciiLower, isDigits_asciiLower]
  refine and_congr_right fun hdigits => ?_
  rw [asciiLower_of_isDigits hdigits]

/-- The word of a function that is neither small nor capital. -/
def MixedWord (chars : List Char) : Prop :=
  asciiLower (chars.take 4) = ['r', 'g', 'b', '('] ∧ ¬ accepted.Word (chars.take 4)

/-- What is read has no mixed word. -/
theorem not_mixedWord {chars : List Char} {c : Color} (h : accepted.Denotes chars c) :
    ¬ MixedWord chars := by
  rintro ⟨hlower, hmixed⟩
  cases h with
  | hexadecimal hmarks hdigits =>
    obtain ⟨d, hd, hhex⟩ := exists_not_isHexChar_of_word hlower
    exact hhex (isHexChar_of_hexadecimal hmarks hdigits d hd)
  | function hword =>
    rw [take_word hword] at hmixed
    exact hmixed hword
  | name hname => exact asciiLower_take_ne_word_of_lookup hname hlower

theorem dropLast_asciiLower (chars : List Char) :
    (asciiLower chars).dropLast = asciiLower chars.dropLast :=
  (List.map_dropLast ..).symm

theorem ofParts?_asciiLower (parts : List (List Char)) :
    ofParts? (parts.map asciiLower) = ofParts? parts := by
  match parts with
  | [_, _, _] => simp only [List.map_cons, List.map_nil, ofParts?, decimalComponent?_asciiLower]
  | [] | [_] | [_, _] | _ :: _ :: _ :: _ :: _ => rfl

theorem ofFunction?_asciiLower {chars : List Char} (h : accepted.Word (chars.take 4)) :
    ofFunction? (asciiLower chars) = ofFunction? chars := by
  -- Either spelling of the word becomes the same in lower case.
  have hlower : asciiLower chars = ['r', 'g', 'b', '('] ++ asciiLower (chars.drop 4) := by
    conv_lhs => rw [← List.take_append_drop 4 chars]
    rcases h with h | h <;> rw [h] <;> rfl
  conv_rhs => rw [← List.take_append_drop 4 chars]
  -- No letter becomes the closing parenthesis.
  have hlast : ∀ inner : List Char,
      (asciiLower inner).getLast? = some ')' ↔ inner.getLast? = some ')' := by
    intro inner
    rw [asciiLower, List.getLast?_map, Option.map_eq_some_iff]
    constructor
    · rintro ⟨c, hc, hparenthesis⟩
      have hmark : (c.toLower == ')') = (c == ')') := toLower_beq (by simp) c
      rw [hparenthesis, beq_self_eq_true] at hmark
      rw [hc, beq_iff_eq.mp hmark.symm]
    · exact fun h => ⟨')', h, rfl⟩
  rw [hlower, ofFunction?_of_word (.inl rfl), ofFunction?_of_word h]
  simp only [hlast, dropLast_asciiLower, splitCommas_asciiLower, ofParts?_asciiLower]

/-- Letter case makes no difference, but for a function whose word is in mixed case. -/
theorem readChars?_asciiLower {chars : List Char} (h : ¬ MixedWord (trimChars chars)) :
    readChars? (asciiLower chars) = readChars? chars := by
  rw [readChars?, readChars?, trimChars_asciiLower]
  generalize trimChars chars = body at h
  -- No letter becomes the mark either.
  have hhead : ((asciiLower body).head? == some '#') = (body.head? == some '#') := by
    cases body with
    | nil => rfl
    | cons c rest =>
      have hmark : (c.toLower == '#') = (c == '#') := toLower_beq (by simp) c
      simp [asciiLower, hmark]
  have htwice : asciiLower (asciiLower body) = asciiLower body := by
    rw [asciiLower, asciiLower, List.map_map]
    exact List.map_congr_left fun c _ => apply_toLower Char.toLower (by decide) c
  rw [hhead, htwice, ofHexChars?_asciiLower]
  split
  · rfl
  · split
    · -- The word is there in lower case, and it is not mixed, so it is one of the two spellings.
      rename_i hword
      refine ofFunction?_asciiLower ?_
      by_contra hmixed
      refine h ⟨?_, hmixed⟩
      rw [asciiLower, List.map_take]
      exact beq_iff_eq.mp hword
    · rfl

/-! ## §2 The documented spellings -/

namespace Spelling

variable {s t : Spelling}

/-- The sign of a pair counts only if there is one. -/
theorem Pair.mono {first second : Char} {n : Nat}
    (h : s.Sign ['+'] → first = '+' → t.Sign ['+']) (hpair : s.Pair first second n) :
    t.Pair first second n := by
  cases hpair with
  | digits hhigh hlow => exact .digits hhigh hlow
  | signed hsign hlow => exact .signed (h hsign rfl) hlow

theorem Digits.mono {digits : List Char} {c : Color}
    (h : s.Sign ['+'] → '+' ∈ digits → t.Sign ['+']) (hdigits : s.Digits digits c) :
    t.Digits digits c := by
  have hpair : ∀ {first second n}, first ∈ digits → s.Pair first second n →
      t.Pair first second n :=
    fun hfirst hpair => hpair.mono fun hsign hplus => h hsign (hplus ▸ hfirst)
  cases hdigits with
  | short hr hg hb => exact .short hr hg hb
  | long hr hg hb =>
    exact .long (hpair (by simp) hr) (hpair (by simp) hg) (hpair (by simp) hb)
  | withAlpha ha hr hg hb =>
    exact .withAlpha (hpair (by simp) ha) (hpair (by simp) hr) (hpair (by simp) hg)
      (hpair (by simp) hb)

theorem Number.mono {chars : List Char} {n : Nat}
    (h : ∀ sign, s.Sign sign → sign ⊆ chars → t.Sign sign) (hnumber : s.Number chars n) :
    t.Number chars n := by
  obtain ⟨hbefore, hsign, hdigits, hvalue, hafter⟩ := hnumber
  exact .mk hbefore (h _ hsign fun c hc => by simp [hc]) hdigits hvalue hafter

variable {chars : List Char} {c : Color}

/-- What is documented is accepted, unless its word is in mixed case. -/
theorem Denotes.of_documented (h : documented.Denotes chars c) (hmixed : ¬ MixedWord chars) :
    accepted.Denotes chars c := by
  cases h with
  | hexadecimal hmarks hdigits =>
    refine .hexadecimal ?_ (hdigits.mono fun _ _ => .inr rfl)
    -- One mark at most is documented, and any number is accepted.
    rcases hmarks with rfl | rfl <;> simp [accepted]
  | function hword hr hg hb =>
    have hsign : ∀ {number : List Char} (sign), documented.Sign sign → sign ⊆ number →
        accepted.Sign sign := fun _ hsign _ => .inl hsign
    refine .function ?_ (hr.mono hsign) (hg.mono hsign) (hb.mono hsign)
    rename_i word r g b red green blue
    have hlength : word.length = 4 := by
      simpa [asciiLower] using congrArg List.length hword
    -- A word that is neither of the two spellings is the mixed one.
    by_contra hother
    refine hmixed ⟨?_, ?_⟩ <;> rwa [List.take_left' hlength]
  | name hname => exact .name hname

/-- What is accepted is documented, unless it has a plus sign or begins with two marks. -/
theorem Denotes.documented_or (h : accepted.Denotes chars c) :
    documented.Denotes chars c ∨ '+' ∈ chars ∨ ['#', '#'] <+: chars := by
  -- A plus sign anywhere is named, so only texts without one are left.
  by_cases hplus : '+' ∈ chars
  · exact .inr (.inl hplus)
  cases h with
  | hexadecimal hmarks hdigits =>
    rename_i marks digits
    have hdocumented : documented.Digits digits c := hdigits.mono fun _ hsign =>
      absurd (List.mem_append_right marks hsign) hplus
    -- Two marks in front are named as well; none or one is documented.
    match marks with
    | [] => exact .inl (.hexadecimal (.inl rfl) hdocumented)
    | [mark] =>
      obtain rfl := hmarks mark (by simp)
      exact .inl (.hexadecimal (.inr rfl) hdocumented)
    | first :: second :: more =>
      obtain rfl := hmarks first (by simp)
      obtain rfl := hmarks second (by simp)
      exact .inr (.inr ⟨more ++ digits, rfl⟩)
  | function hword hr hg hb =>
    rename_i word r g b red green blue
    -- A sign that stands in one of the numbers stands in the text.
    have hsign : ∀ number : List Char, number ⊆ word ++ (r ++ ',' :: (g ++ ',' :: b) ++ [')']) →
        ∀ sign, accepted.Sign sign → sign ⊆ number → documented.Sign sign := by
      rintro number hnumber sign (rfl | rfl) hmem
      · rfl
      · exact absurd (hnumber (hmem (by simp))) hplus
    refine .inl (.function ?_ (hr.mono (hsign r ?_)) (hg.mono (hsign g ?_)) (hb.mono (hsign b ?_)))
    · rcases hword with rfl | rfl <;> rfl
    all_goals
      intro d hd
      simp [hd]
  | name hname => exact .inl (.name hname)

end Spelling

/-- **The texts that are colors.** A text is read, without the blanks around it, by a grammar of its
own, `accepted`. Each documented spelling is read as the color that it denotes, unless it is a
function whose word is neither small nor capital, which is refused. Whatever else is read has a plus
sign or begins with two marks. And letter case makes no difference, but for that word. -/
theorem read?_spellings (text : String) :
    (∀ c, read? text = some c ↔ accepted.Denotes (trimChars text.toList) c) ∧
    (∀ c, documented.Denotes (trimChars text.toList) c →
      (read? text = some c ↔ ¬ MixedWord (trimChars text.toList))) ∧
    (∀ c, read? text = some c → documented.Denotes (trimChars text.toList) c ∨
      '+' ∈ trimChars text.toList ∨ ['#', '#'] <+: trimChars text.toList) ∧
    (MixedWord (trimChars text.toList) → read? text = none) ∧
    (¬ MixedWord (trimChars text.toList) →
      read? (String.ofList (asciiLower text.toList)) = read? text) := by
  have hread : ∀ c, read? text = some c ↔ accepted.Denotes (trimChars text.toList) c :=
    fun c => readChars?_eq_some_iff
  -- Each part is about one direction: documented, accepted, mixed and in lower case.
  refine ⟨hread, fun c hdocumented => ⟨fun h => ?_, fun hmixed => ?_⟩, fun c h => ?_,
    fun hmixed => ?_, fun hmixed => ?_⟩
  · exact not_mixedWord ((hread c).mp h)
  · exact (hread c).mpr (hdocumented.of_documented hmixed)
  · exact ((hread c).mp h).documented_or
  · exact Option.eq_none_iff_forall_ne_some.mpr fun c h => not_mixedWord ((hread c).mp h) hmixed
  · rw [read?, read?, String.toList_ofList, readChars?_asciiLower hmixed]

private theorem documented_number {before : List Char} {n : Nat}
    (hbefore : ∀ c ∈ before, isBlank c = true) (hn : n ≤ 255) :
    documented.Number (before ++ digitsOf n) n := by
  have hdigits := isDigits_digitsOf n
  simpa [digitsValue_digitsOf, hn] using
    Number.mk (s := documented) hbefore rfl hdigits (by rwa [digitsValue_digitsOf])
      (List.forall_mem_nil _)

private theorem documented_function {word : List Char} (hword : documented.Word word) :
    documented.Denotes (word ++ "10, 20, 30)".toList) (rgb 10 20 30) := by
  have hspace : ∀ c ∈ [' '], isBlank c = true := List.forall_mem_singleton.mpr rfl
  exact .function hword (documented_number (n := 10) (List.forall_mem_nil _) (by decide))
    (documented_number (n := 20) hspace (by decide))
    (documented_number (n := 30) hspace (by decide))

/-- A function in capitals is documented, and read as its color. -/
theorem read?_spellings_capitals :
    documented.Denotes (trimChars " RGB(10, 20, 30)".toList) (rgb 10 20 30) ∧
      ¬ MixedWord (trimChars " RGB(10, 20, 30)".toList) ∧
      read? " RGB(10, 20, 30)" = some (rgb 10 20 30) := by
  have htrim : trimChars " RGB(10, 20, 30)".toList =
      ['R', 'G', 'B', '('] ++ "10, 20, 30)".toList := by
    decide +kernel
  have hdocumented : documented.Denotes (trimChars " RGB(10, 20, 30)".toList) (rgb 10 20 30) :=
    htrim ▸ documented_function rfl
  have hmixed : ¬ MixedWord (trimChars " RGB(10, 20, 30)".toList) := by
    rw [htrim]
    exact fun h => h.2 (.inr rfl)
  exact ⟨hdocumented, hmixed, ((read?_spellings _).2.1 _ hdocumented).mpr hmixed⟩

/-- The word of the function is documented in any letter case, and refused with one capital. -/
theorem read?_mixed_word :
    documented.Denotes "Rgb(10, 20, 30)".toList (rgb 10 20 30) ∧
      read? "Rgb(10, 20, 30)" = none ∧ read? "rgb(10, 20, 30)" = some (rgb 10 20 30) :=
  ⟨documented_function (show documented.Word ['R', 'g', 'b', '('] from rfl), by decide +kernel,
    by decide +kernel⟩

end BandedReport.Color
