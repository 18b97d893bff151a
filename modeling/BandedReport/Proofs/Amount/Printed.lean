import BandedReport.Proofs.Amount.Chinese
import BandedReport.Proofs.Amount.Percent

/-!
# What the texts of amounts consist of

Between the literal text of a symbol or a pattern, the text of an amount has only a sign, digits,
separators and Chinese capitals. That holds of every finite number with fixed places, as currency,
in capitals and as it is shown elsewhere. A percentage, and a pattern with a percent sign, scale the
number in double arithmetic first; where that leaves the range of doubles the text is that of
infinity, and only there.

* `IsAmountText` says what the text of an amount consists of;
* `isAmountText_fixed`, `isAmountText_currency`, `isAmountText_patterned_iff` and
  `isAmountText_print_iff` are the formatters;
* `amountTexts_of_isFinite` is the result, `amountTexts_of_isFinite_percent` a percentage without
  digits.
-/

namespace BandedReport.Amount

/-! ## §1 Characters of amounts -/

/-- The capital numerals with the units that follow them. -/
def capitals : List Char := "零壹贰叁肆伍陆柒捌玖拾佰仟万亿元角分整".toList

/-- A digit, a separator, a decimal point or a capital. -/
def IsAmountChar (c : Char) : Prop := c.isDigit = true ∨ c = ',' ∨ c = '.' ∨ c ∈ capitals

/-- A sign, literal text, one or more characters of amounts, and literal text. -/
def IsAmountText (before after text : List Char) : Prop :=
  ∃ sign body, (sign = [] ∨ sign = ['-'] ∨ sign = ['负']) ∧ body ≠ [] ∧
    (∀ c ∈ body, IsAmountChar c) ∧ text = sign ++ before ++ body ++ after

/-- A text with another character in front of the literal text at its end is not of this form. -/
theorem not_isAmountText {before after front : List Char} {c : Char} (hc : ¬ IsAmountChar c) :
    ¬ IsAmountText before after (front ++ [c] ++ after) := by
  rintro ⟨sign, body, -, hne, hbody, htext⟩
  have hlast := congrArg List.getLast? (List.append_cancel_right htext)
  rw [List.getLast?_concat, List.getLast?_append_of_ne_nil _ hne] at hlast
  exact hc (hbody c (List.mem_of_getLast? hlast.symm))

theorem isAmountText_of_sign (negative : Prop) [Decidable negative] (before after : List Char)
    {body : List Char} (hne : body ≠ []) (hbody : ∀ c ∈ body, IsAmountChar c) :
    IsAmountText before after ((if negative then ['-'] else []) ++ before ++ body ++ after) := by
  refine ⟨_, body, ?_, hne, hbody, rfl⟩
  split
  · exact .inr (.inl rfl)
  · exact .inl rfl

/-! ## §2 Fixed places -/

theorem mem_fixedMagnitude {r : Float} (hfinite : r.isFinite = true) {places : ℕ} {c : Char}
    (hc : c ∈ fixedMagnitude places r) : IsAmountChar c := by
  obtain ⟨whole, fraction, htext, hwhole, hfraction, -⟩ := exists_fixedMagnitude_eq hfinite places
  rw [htext] at hc
  rcases List.mem_append.mp hc with hc | hc
  · exact .inl (hwhole.2 c hc)
  · unfold pointed at hc
    split at hc
    · cases hc
    · rcases List.mem_cons.mp hc with rfl | hc
      · exact .inr (.inr (.inl rfl))
      · exact .inl (hfraction c hc)

/-- Apart from separators, a grouped text has the characters of the plain one. -/
theorem isAmountChar_of_filter {chars : List Char}
    (h : ∀ c ∈ chars.filter (· != ','), IsAmountChar c) {c : Char} (hc : c ∈ chars) :
    IsAmountChar c := by
  by_cases hcomma : c = ','
  · exact .inr (.inl hcomma)
  · exact h c (List.mem_filter.mpr ⟨hc, by simpa using hcomma⟩)

theorem isAmountChar_fixedBody {r : Float} (hfinite : r.isFinite = true) (places : ℕ)
    (grouped : Bool) : ∀ c ∈ fixedBody r places grouped, IsAmountChar c := by
  intro c hc
  refine isAmountChar_of_filter (fun d hd => ?_) hc
  rw [filter_fixedBody] at hd
  exact mem_fixedMagnitude hfinite hd

/-- The text of infinity or of a missing number ends in a letter. -/
theorem exists_fixedMagnitude_of_not_finite {r : Float} (h : r.isFinite = false) (places : ℕ) :
    ∃ front c, fixedMagnitude places r = front ++ [c] ∧ ¬ IsAmountChar c ∧ front.length = 2 ∧
      '.' ∉ front ++ [c] := by
  rcases fixedMagnitude_of_not_finite h places with htext | htext <;> rw [htext]
  · exact ⟨['N', 'a'], 'N', rfl, by unfold IsAmountChar; decide, rfl, by decide⟩
  · exact ⟨['i', 'n'], 'f', rfl, by unfold IsAmountChar; decide, rfl, by decide⟩

theorem exists_fixedChars_of_not_finite {x : Float} (h : x.isFinite = false) (places : ℕ)
    (grouped : Bool) :
    ∃ front c, fixedChars x places grouped = front ++ [c] ∧ ¬ IsAmountChar c := by
  obtain ⟨front, c, htext, hc, hlength, hpoint⟩ := exists_fixedMagnitude_of_not_finite h places
  -- The word has three letters, so no comma is put into it.
  have hbody : fixedBody x places grouped = front ++ [c] := by
    have hpointed : fixedMagnitude places x = (front ++ [c]) ++ pointed [] := by
      rw [htext]
      exact (List.append_nil _).symm
    have hgroup : groupThousands (front ++ [c]) = front ++ [c] :=
      groupThousands_of_length_le (by simp [hlength])
    rw [fixedBody_eq hpointed hpoint, hgroup, ite_self]
    exact List.append_nil _
  rw [fixedChars, roundHalfUp_of_not_finite h, hbody]
  -- A minus sign in front does not change the last character.
  split
  · exact ⟨'-' :: front, c, rfl, hc⟩
  · exact ⟨front, c, rfl, hc⟩

theorem isAmountText_withSymbol {x : Float} (hfinite : x.isFinite = true) (symbol : List Char)
    (places : ℕ) (grouped : Bool) :
    IsAmountText symbol [] (withSymbol symbol (fixedChars x places grouped)) := by
  obtain ⟨c, rest, hbody, -⟩ := exists_fixedBody_cons (roundHalfUp x places) places grouped
  have hchars := isAmountChar_fixedBody (isFinite_roundHalfUp hfinite places) places grouped
  have htext := isAmountText_of_sign (roundHalfUp x places < 0) symbol []
    (hbody ▸ List.cons_ne_nil c rest) hchars
  rwa [List.append_nil, ← withSymbol_fixedChars] at htext

theorem withSymbol_nil (chars : List Char) : withSymbol [] chars = chars := by
  unfold withSymbol
  split <;> rfl

/-- With literal text behind it, the text of a number with fixed places is the text of an amount
just if the number is finite. -/
theorem isAmountText_fixedChars_iff (x : Float) (places : ℕ) (grouped : Bool) (after : List Char) :
    IsAmountText [] after (fixedChars x places grouped ++ after) ↔ x.isFinite = true := by
  constructor
  · -- A number that is not finite ends with a letter.
    intro h
    by_contra hfinite
    obtain ⟨front, c, hfront, hc⟩ :=
      exists_fixedChars_of_not_finite (eq_false_of_ne_true hfinite) places grouped
    rw [hfront] at h
    exact not_isAmountText hc h
  · -- A finite one is printed as if its currency had no sign.
    intro hfinite
    obtain ⟨sign, body, hsign, hne, hbody, htext⟩ :=
      isAmountText_withSymbol hfinite [] places grouped
    rw [withSymbol_nil, List.append_nil, List.append_nil] at htext
    exact ⟨sign, body, hsign, hne, hbody, by rw [htext, List.append_nil]⟩

/-- A finite number with fixed places. -/
theorem isAmountText_fixed {x : Float} (hfinite : x.isFinite = true) (places : ℕ)
    (grouped : Bool) : IsAmountText [] [] (fixed x places grouped).toList := by
  rw [fixed, String.toList_ofList, ← List.append_nil (fixedChars x places grouped)]
  exact (isAmountText_fixedChars_iff x places grouped []).mpr hfinite

/-- A finite amount of money. -/
theorem isAmountText_currency {x : Float} (hfinite : x.isFinite = true) (symbol : String)
    (places : ℕ) : IsAmountText symbol.toList [] (currency x symbol places).toList := by
  rw [currency_eq, String.toList_ofList]
  exact isAmountText_withSymbol hfinite symbol.toList places true

/-! ## §3 Patterns -/

theorem Follows.isAmountChar {integer fraction : List Char} {rounded : Float}
    {whole decimals : List Char} (h : Follows integer fraction rounded whole decimals) :
    ∀ c ∈ whole ++ pointed decimals, IsAmountChar c := by
  intro c hc
  rcases List.mem_append.mp hc with hc | hc
  · exact isAmountChar_of_filter
      (fun d hd => .inl (h.digits d (List.mem_append_left _ hd))) hc
  · unfold pointed at hc
    split at hc
    · cases hc
    · rcases List.mem_cons.mp hc with rfl | hc
      · exact .inr (.inr (.inl rfl))
      · exact .inl (h.digits c (List.mem_append_right _ hc))

theorem Follows.ne_nil {integer fraction : List Char} {rounded : Float}
    {whole decimals : List Char} (h : Follows integer fraction rounded whole decimals) :
    whole ++ pointed decimals ≠ [] := by
  intro hnil
  obtain ⟨hwhole, hdecimals⟩ := List.append_eq_nil_iff.mp hnil
  obtain ⟨d, -, hread, -⟩ := h.denotes
  rw [hwhole, hdecimals] at hread
  cases hread

/-- Zeros and separators may come in front of a text of three characters, but not behind it. -/
theorem Pattern.exists_wholeDigits_append (p : Pattern) {text : List Char}
    (hlength : text.length = 3) : ∃ padding, p.wholeDigits text [] = padding ++ text := by
  obtain ⟨zeros, hpadded⟩ : ∃ zeros, p.wholeDigits text [] =
      if p.grouped then groupThousands (zeros ++ text) else zeros ++ text :=
    ⟨List.replicate (p.minWhole - text.length) '0', by simp [Pattern.wholeDigits]⟩
  rw [hpadded]
  split
  · rcases List.eq_nil_or_concat' zeros with rfl | ⟨_, _, hzeros⟩
    · exact ⟨[], groupThousands_of_length_le hlength.le⟩
    · refine ⟨groupThousands zeros ++ [','], ?_⟩
      rw [groupThousands_append (by simp [hzeros]) hlength, List.append_assoc]
      rfl
  · exact ⟨zeros, rfl⟩

/-- What a pattern makes of a number that is not finite ends in a letter before the literal text. -/
theorem exists_applyTo_of_not_finite {p : Pattern} {x : Float}
    (h : (if p.percent then x * 100.0 else x).isFinite = false) :
    ∃ front c, p.applyTo x = front ++ [c] ++ p.after ∧ ¬ IsAmountChar c := by
  obtain ⟨front, c, htext, hc, hlength, hpoint⟩ :=
    exists_fixedMagnitude_of_not_finite h p.maxFraction
  -- Zeros may be put in front of the word, but its last letter stays the last one.
  obtain ⟨padding, hwhole⟩ := p.exists_wholeDigits_append
    (show (front ++ [c]).length = 3 by simp [hlength])
  -- No zeros are dropped behind, for there is no point.
  obtain ⟨sign, happly⟩ : ∃ sign, p.applyTo x =
      sign ++ p.before ++ (padding ++ (front ++ [c])) ++ p.after := by
    rw [Pattern.applyTo]
    dsimp only
    rw [roundHalfUp_of_not_finite h, htext, splitPoint_of_not_mem hpoint]
    dsimp only
    rw [Option.getD_none, Pattern.dropTrailingZeros_of_length_le (Nat.zero_le _), hwhole]
    generalize (if p.percent then x * 100.0 else x) = value
    split
    · exact ⟨['-'], by simp⟩
    · exact ⟨[], by simp⟩
  exact ⟨sign ++ p.before ++ (padding ++ front), c, by rw [happly]; simp, hc⟩

/-- A pattern writes the text of an amount just if the number is finite once it is scaled. -/
theorem isAmountText_patterned_iff {pattern : String} {before core after : List Char}
    (hcore : HasCore pattern.toList before core after) (x : Float) :
    IsAmountText before after (patterned x pattern).toList ↔
      (scaledValue before after x).isFinite = true := by
  obtain ⟨integer, fraction, hsplit⟩ := exists_pointSplit core
  constructor
  · -- The number is written as a word, which ends with a letter whatever the pattern is.
    intro h
    by_contra hfinite
    have hscaled : (if before.contains '%' || after.contains '%' then x * 100.0
        else x).isFinite = false := by
      simpa [scaledValue] using hfinite
    obtain ⟨front, c, htext, hc⟩ := exists_applyTo_of_not_finite (p := {
      before, after
      percent := before.contains '%' || after.contains '%'
      grouped := integer.contains ','
      minWhole := integer.count '0'
      minFraction := fraction.count '0'
      maxFraction := fraction.countP fun c => c == '0' || c == '#' }) hscaled
    rw [patterned, hcore.ofChars?_eq hsplit] at h
    dsimp only at h
    rw [String.toList_ofList, htext] at h
    exact not_isAmountText hc h
  · -- The digits stand between the two parts of the pattern.
    intro hfinite
    obtain ⟨whole, decimals, htext, hfollows⟩ := hcore.exists_patterned_eq hsplit hfinite
    rw [htext, List.append_assoc (_ ++ before)]
    exact isAmountText_of_sign _ before after hfollows.ne_nil hfollows.isAmountChar

/-! ## §4 Chinese capitals -/

theorem chineseDigit_mem (digit : ℕ) : chineseDigit digit ∈ capitals := by
  unfold chineseDigit
  split <;> decide

theorem chineseUnit_subset (place : ℕ) : chineseUnit place ⊆ capitals := by
  unfold chineseUnit
  split <;> decide

theorem chineseGroupUnit_subset (index : ℕ) : chineseGroupUnit index ⊆ capitals := by
  unfold chineseGroupUnit
  split <;> decide

theorem groupDigits_subset (group places : ℕ) (started gap : Bool) :
    groupDigits group places started gap ⊆ capitals := by
  induction places generalizing started gap with
  | zero => exact List.nil_subset _
  | succ place ih =>
    rw [groupDigits]
    split
    · -- A digit that is left out writes nothing.
      exact ih started started
    · have hgap : (if gap then ['零'] else []) ⊆ capitals := by
        split
        · decide
        · exact List.nil_subset _
      rw [List.append_assoc]
      exact List.append_subset.mpr ⟨hgap, List.cons_subset.mpr ⟨chineseDigit_mem _,
        List.append_subset.mpr ⟨chineseUnit_subset place, ih true false⟩⟩⟩

theorem integerGroups_subset (integer groups : ℕ) (started gap : Bool) :
    integerGroups integer groups started gap ⊆ capitals := by
  induction groups generalizing started gap with
  | zero => exact List.nil_subset _
  | succ index ih =>
    rw [integerGroups]
    split
    · exact ih started started
    · have hgap : ∀ missing : Bool, (if missing then ['零'] else []) ⊆ capitals := by
        decide
      refine List.append_subset.mpr ⟨List.append_subset.mpr ⟨List.append_subset.mpr
        ⟨hgap _, groupDigits_subset _ 4 false false⟩, chineseGroupUnit_subset index⟩, ?_⟩
      exact ih true false

theorem fenToChinese_subset (fen : ℕ) : fenToChinese fen ⊆ capitals ∧ fenToChinese fen ≠ [] := by
  rw [fenToChinese]
  dsimp only
  split
  · decide
  · -- The three parts of an amount are looked at one by one; the last of them is not empty.
    have hyuan : (if (fen / 100 == 0) then [] else integerGroups (fen / 100) 4 false false ++ ['元'])
        ⊆ capitals := by
      split
      · exact List.nil_subset _
      · exact List.append_subset.mpr ⟨integerGroups_subset _ 4 false false, by decide⟩
    have hjiao : (if (fen / 10 % 10 == 0) then
          (if (fen / 100 == 0 || fen % 10 == 0) then [] else ['零'])
        else [chineseDigit (fen / 10 % 10), '角']) ⊆ capitals := by
      split
      · split <;> decide
      · exact List.cons_subset.mpr ⟨chineseDigit_mem _, by decide⟩
    have hfen : (if (fen % 10 == 0) then ['整'] else [chineseDigit (fen % 10), '分']) ⊆ capitals ∧
        (if (fen % 10 == 0) then ['整'] else [chineseDigit (fen % 10), '分']) ≠ [] := by
      split
      · decide
      · exact ⟨List.cons_subset.mpr ⟨chineseDigit_mem _, by decide⟩, List.cons_ne_nil _ _⟩
    exact ⟨List.append_subset.mpr ⟨List.append_subset.mpr ⟨hyuan, hjiao⟩, hfen.1⟩,
      List.append_ne_nil_of_right_ne_nil _ hfen.2⟩

/-- An amount in Chinese capitals. -/
theorem isAmountText_chinese? {x : Float} {text : String} (h : chinese? x = some text) :
    IsAmountText [] [] text.toList := by
  obtain ⟨fen, -, -, rfl⟩ := chinese?_eq_some_iff.mp h
  obtain ⟨hsubset, hne⟩ := fenToChinese_subset fen
  rw [String.toList_ofList]
  refine ⟨if fen != 0 && x < 0 then ['负'] else [], fenToChinese fen, ?_, hne,
    fun c hc => .inr (.inr (.inr (hsubset hc))), by simp⟩
  split
  · exact .inr (.inr rfl)
  · exact .inl rfl

/-! ## §5 Numbers as they are shown -/

theorem Numeral.isAmountChar {chars : List Char} (h : Numeral chars) :
    chars ≠ [] ∧ ∀ c ∈ chars, IsAmountChar c := by
  cases h with
  | whole hdigits => exact ⟨hdigits.1, fun c hc => .inl (hdigits.2 c hc)⟩
  | point hwhole hfraction =>
    refine ⟨by simp, fun c hc => ?_⟩
    rcases List.mem_append.mp hc with hc | hc
    · exact .inl (hwhole.2 c hc)
    · rcases List.mem_cons.mp hc with rfl | hc
      · exact .inr (.inr (.inl rfl))
      · exact .inl (hfraction.2 c hc)

/-- A finite number as it is shown. -/
theorem isAmountText_formatNumberChars {x : Float} (hfinite : x.isFinite = true) :
    IsAmountText [] [] (formatNumberChars x) := by
  obtain ⟨hne, hchars⟩ := Numeral.isAmountChar (numeral_formatNumberChars_abs hfinite)
  by_cases hneg : x < 0.0
  · rw [formatNumberChars_of_lt_zero hfinite hneg]
    exact ⟨['-'], _, .inr (.inl rfl), hne, hchars, by simp⟩
  · by_cases hzero : x = -0.0
    · have htext : formatNumberChars (-0.0) = ['0'] := by decide +kernel
      rw [hzero, htext]
      exact ⟨[], ['0'], .inl rfl, by decide, by simp [IsAmountChar], rfl⟩
    · rw [abs_of_not_lt_zero hneg hzero] at hne hchars
      exact ⟨[], _, .inl rfl, hne, hchars, by simp⟩

/-! ## §6 Printed values -/

/-- The literal text that a format puts behind the sign of a number. -/
def literalBefore (f : ValueFormat) : List Char :=
  if f.formatType = .currency then defaultSymbol.toList else []

/-- The literal text that a format puts behind a number. -/
def literalAfter (f : ValueFormat) : List Char :=
  if f.formatType = .percent then ['%'] else []

theorem isAmountText_display {x : Float} (hfinite : x.isFinite = true) :
    IsAmountText [] [] (Scalar.number x).display.toList := by
  have hdisplay : (Scalar.number x).display.toList = formatNumberChars x := String.toList_ofList
  rw [hdisplay]
  exact isAmountText_formatNumberChars hfinite

/-- A finite number is printed as the text of an amount, but for percentages that are not finite. -/
theorem isAmountText_print_iff (f : ValueFormat) {x : Float} (hfinite : x.isFinite = true) :
    IsAmountText (literalBefore f) (literalAfter f) (f.print (.number x)).toList ↔
      (f.formatType = .percent → (x * 100.0).isFinite = true) := by
  obtain ⟨type, places⟩ := f
  cases type with
  | percent =>
    -- The number is taken a hundredfold, which may be too large.
    have hprint : (ValueFormat.print ⟨.percent, places⟩ (.number x)).toList =
        fixedChars (x * 100.0) (ValueFormat.decimals ⟨.percent, places⟩) false ++ ['%'] := by
      show (fixed _ _ _ ++ String.ofList ['%']).toList = _
      rw [fixed, String.toList_append, String.toList_ofList, String.toList_ofList]
    rw [hprint]
    exact (isAmountText_fixedChars_iff _ _ _ ['%']).trans ⟨fun h _ => h, fun h => h rfl⟩
  | number => exact iff_of_true (isAmountText_fixed hfinite _ false) (by rintro ⟨⟩)
  | currency => exact iff_of_true (isAmountText_currency hfinite defaultSymbol _) (by rintro ⟨⟩)
  | chineseUpper =>
    -- An amount without a Chinese text is shown as it is.
    refine iff_of_true ?_ (by rintro ⟨⟩)
    show IsAmountText [] [] ((chinese? x).getD (Scalar.number x).display).toList
    cases hchinese : chinese? x with
    | none => exact isAmountText_display hfinite
    | some text => exact isAmountText_chinese? hchinese
  | general | date => exact iff_of_true (isAmountText_display hfinite) (by rintro ⟨⟩)

/-! ## §7 The result -/

/-- **Texts of amounts.** A finite number with fixed places, as currency, and printed in any format
that is not for percentages is a sign, the symbol, and digits, separators or capitals. A percentage
and a number written by a pattern are so just if the number is finite once it is scaled. -/
theorem amountTexts_of_isFinite {x : Float} (hfinite : x.isFinite = true) :
    (∀ places grouped, IsAmountText [] [] (fixed x places grouped).toList) ∧
    (∀ symbol places, IsAmountText symbol.toList [] (currency x symbol places).toList) ∧
    (∀ pattern before core after, HasCore pattern.toList before core after →
      (IsAmountText before after (patterned x pattern).toList ↔
        (scaledValue before after x).isFinite = true)) ∧
    ∀ f : ValueFormat,
      IsAmountText (literalBefore f) (literalAfter f) (f.print (.number x)).toList ↔
        (f.formatType = .percent → (x * 100.0).isFinite = true) :=
  ⟨isAmountText_fixed hfinite, isAmountText_currency hfinite,
    fun _ _ _ _ hcore => isAmountText_patterned_iff hcore x,
    fun f => isAmountText_print_iff f hfinite⟩

/-- The largest power of ten among the doubles. -/
theorem amountTexts_of_isFinite_largest :
    (1e308 : Float).isFinite = true ∧
    (∀ places grouped, IsAmountText [] [] (fixed 1e308 places grouped).toList) ∧
    (∀ symbol places, IsAmountText symbol.toList [] (currency 1e308 symbol places).toList) ∧
    (∀ pattern before core after, HasCore pattern.toList before core after →
      (IsAmountText before after (patterned 1e308 pattern).toList ↔
        (scaledValue before after 1e308).isFinite = true)) ∧
    ∀ f : ValueFormat,
      IsAmountText (literalBefore f) (literalAfter f) (f.print (.number 1e308)).toList ↔
        (f.formatType = .percent → (1e308 * 100.0 : Float).isFinite = true) := by
  have hfinite : (1e308 : Float).isFinite = true := by decide +kernel
  exact ⟨hfinite, amountTexts_of_isFinite hfinite⟩

/-- A finite number whose percentage is written as infinity, by the format and by a pattern. -/
theorem amountTexts_of_isFinite_percent :
    (1e307 : Float).isFinite = true ∧
    (⟨.percent, some 2⟩ : ValueFormat).print (.number 1e307) = "inf%" ∧
    HasCore "0.00%".toList [] "0.00".toList ['%'] ∧
    patterned 1e307 "0.00%" = "inf%" ∧
    ¬ IsAmountText [] ['%'] "inf%".toList := by
  refine ⟨by decide +kernel, by decide +kernel, ?_, by decide +kernel, ?_⟩
  · exact ⟨rfl, List.forall_mem_nil _, List.forall_mem_singleton.mpr rfl,
      ⟨_, _, rfl, by decide⟩, ⟨"0.0".toList, '0', rfl, by decide⟩⟩
  · -- The last letter of the word is no character of an amount.
    have hletter : ¬ IsAmountChar 'f' := by
      unfold IsAmountChar
      decide
    show ¬ IsAmountText [] ['%'] (['i', 'n'] ++ ['f'] ++ ['%'])
    exact not_isAmountText hletter

end BandedReport.Amount
