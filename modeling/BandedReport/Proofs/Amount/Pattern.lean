import Mathlib.Data.List.DropRight
import BandedReport.Amount.Pattern
import BandedReport.Proofs.Amount.Fixed

/-!
# Number patterns are applied faithfully

A pattern is text around a core. What a number is written as is the same text around digits: as many
before the point as the core asks for at least, grouped if it has a separator, and behind the point
as many as it asks for and allows, without zeros at the end that it does not ask for. The digits
denote the rounded number.

* `HasCore` and `PointSplit` take a pattern apart, `HasCore.ofChars?_eq` is what is read of it;
* `Follows` says what digits follow the parts of a core;
* `patterned_faithful` is the result.
-/

namespace BandedReport.Amount

/-! ## §1 The core of a pattern -/

/-- A pattern with a core: it begins and ends in core characters, and there are none around it. -/
structure HasCore (pattern before core after : List Char) : Prop where
  eq : pattern = before ++ core ++ after
  before_free : ∀ c ∈ before, isCoreChar c = false
  after_free : ∀ c ∈ after, isCoreChar c = false
  first : ∃ c rest, core = c :: rest ∧ isCoreChar c = true
  last : ∃ rest c, core = rest ++ [c] ∧ isCoreChar c = true

/-- The part of a core before its first point and the part behind it, if there is a point. -/
def PointSplit (core integer fraction : List Char) : Prop :=
  '.' ∉ integer ∧ (core = integer ∧ fraction = [] ∨ core = integer ++ '.' :: fraction)

theorem exists_pointSplit (core : List Char) :
    ∃ integer fraction, PointSplit core integer fraction := by
  by_cases h : '.' ∈ core
  · obtain ⟨integer, fraction, hcore, hinteger⟩ := List.eq_append_cons_of_mem h
    exact ⟨integer, fraction, hinteger, .inr hcore⟩
  · exact ⟨core, [], h, .inl ⟨rfl, rfl⟩⟩

theorem PointSplit.splitPoint_eq {core integer fraction : List Char}
    (h : PointSplit core integer fraction) :
    (splitPoint core).1 = integer ∧ (splitPoint core).2.getD [] = fraction := by
  obtain ⟨hinteger, ⟨rfl, rfl⟩ | rfl⟩ := h
  · rw [splitPoint_of_not_mem hinteger]
    exact ⟨rfl, rfl⟩
  · rw [splitPoint_cons_point hinteger]
    exact ⟨rfl, rfl⟩

/-- A text with a core character, cut at the first one. -/
theorem exists_first {chars : List Char} (h : ∃ c ∈ chars, isCoreChar c = true) :
    ∃ before c rest, chars = before ++ c :: rest ∧ isCoreChar c = true ∧
      ∀ x ∈ before, isCoreChar x = false := by
  obtain ⟨c, hfind⟩ := Option.isSome_iff_exists.mp (List.find?_isSome.mpr h)
  obtain ⟨hc, before, rest, heq, hbefore⟩ := List.find?_eq_some_iff_append.mp hfind
  exact ⟨before, c, rest, heq, hc, fun x hx => by simpa using hbefore x hx⟩

/-- Every pattern with a core character has a core. -/
theorem exists_hasCore {pattern : List Char} (h : ∃ c ∈ pattern, isCoreChar c = true) :
    ∃ before core after, HasCore pattern before core after := by
  -- The first core character, and then the last one of what begins with it.
  obtain ⟨before, c, rest, hpattern, hc, hbefore⟩ := exists_first h
  obtain ⟨after, d, core, hrest, hd, hafter⟩ :=
    exists_first ⟨c, List.mem_reverse.mpr (List.mem_cons_self (l := rest)), hc⟩
  have hcore : c :: rest = (core.reverse ++ [d]) ++ after.reverse := by
    rw [← List.reverse_reverse (c :: rest), hrest]
    simp
  -- Both ends of the core are core characters; where it is one character, they are the same.
  refine ⟨before, core.reverse ++ [d], after.reverse, ?_, hbefore, ?_, ?_, _, d, rfl, hd⟩
  · rw [hpattern, hcore, List.append_assoc before]
  · exact fun x hx => hafter x (List.mem_reverse.mp hx)
  · cases hfront : core.reverse with
    | nil => exact ⟨d, [], rfl, hd⟩
    | cons x front =>
      rw [hfront] at hcore
      exact ⟨x, _, rfl, (List.cons.inj hcore).1 ▸ hc⟩

theorem HasCore.split_eq {pattern before core after : List Char}
    (h : HasCore pattern before core after) :
    Pattern.split pattern = (before, core, after) := by
  obtain ⟨c, rest, hfirst, hc⟩ := h.first
  obtain ⟨rest', d, hlast, hd⟩ := h.last
  -- On either side the characters up to the first core character are taken off.
  have hbefore : ∀ c ∈ before, (!isCoreChar c) = true := fun c hc => by simp [h.before_free c hc]
  have hafter : ∀ c ∈ after.reverse, (!isCoreChar c) = true := fun c hc => by
    simp [h.after_free c (List.mem_reverse.mp hc)]
  have htake : pattern.takeWhile (!isCoreChar ·) = before := by
    rw [h.eq, hfirst, List.append_assoc, List.takeWhile_append_of_pos hbefore]
    simp [hc]
  have hdrop : pattern.dropWhile (!isCoreChar ·) = core ++ after := by
    rw [h.eq, hfirst, List.append_assoc, List.dropWhile_append_of_pos hbefore]
    simp [hc]
  -- What stands behind the core is cut off from the other end.
  have hreverse : (core ++ after).reverse = after.reverse ++ d :: rest'.reverse := by
    simp [hlast]
  rw [Pattern.split, htake, hdrop, hreverse, List.takeWhile_append_of_pos hafter,
    List.dropWhile_append_of_pos hafter]
  simp [hd, hlast]

/-- What is read of a pattern. -/
theorem HasCore.ofChars?_eq {pattern before core after integer fraction : List Char}
    (h : HasCore pattern before core after) (hsplit : PointSplit core integer fraction) :
    Pattern.ofChars? pattern = some {
      before, after
      percent := before.contains '%' || after.contains '%'
      grouped := integer.contains ','
      minWhole := integer.count '0'
      minFraction := fraction.count '0'
      maxFraction := fraction.countP fun c => c == '0' || c == '#' } := by
  obtain ⟨c, rest, hfirst, -⟩ := h.first
  have hempty : core.isEmpty = false := by rw [hfirst]; rfl
  rw [Pattern.ofChars?, h.split_eq]
  dsimp only
  rw [hempty, if_neg Bool.false_ne_true, hsplit.splitPoint_eq.1, hsplit.splitPoint_eq.2]

/-! ## §2 Zeros at the end -/

namespace Pattern

/-- What is dropped at the end is zeros. -/
theorem exists_dropTrailingZeros_append (least : ℕ) (digits : List Char) :
    ∃ n, digits = dropTrailingZeros least digits ++ List.replicate n '0' := by
  let optional := digits.drop least
  have hzeros : optional.rtakeWhile (· == '0') =
      List.replicate (optional.rtakeWhile (· == '0')).length '0' :=
    List.eq_replicate_iff.mpr ⟨rfl, fun c hc => by simpa using List.mem_rtakeWhile_imp hc⟩
  refine ⟨(optional.rtakeWhile (· == '0')).length, ?_⟩
  show digits = (digits.take least ++ optional.rdropWhile (· == '0')) ++ _
  rw [← hzeros, List.append_assoc, List.rdropWhile_append_rtakeWhile, List.take_append_drop]

theorem le_length_dropTrailingZeros {least : ℕ} {digits : List Char} (h : least ≤ digits.length) :
    least ≤ (dropTrailingZeros least digits).length := by
  rw [dropTrailingZeros, List.length_append, List.length_take]
  omega

theorem getLast?_dropTrailingZeros {least : ℕ} {digits : List Char}
    (h : least < (dropTrailingZeros least digits).length) :
    (dropTrailingZeros least digits).getLast? ≠ some '0' := by
  have hresult : dropTrailingZeros least digits =
    digits.take least ++ (digits.drop least).rdropWhile (· == '0') := rfl
  have hne : (digits.drop least).rdropWhile (· == '0') ≠ [] := by
    rintro hnil
    rw [hresult, hnil, List.append_nil, List.length_take] at h
    omega
  have hlast := List.rdropWhile_last_not (· == '0') _ hne
  rw [hresult, List.getLast?_append_of_ne_nil _ hne, List.getLast?_eq_some_getLast hne]
  simpa using hlast

theorem dropTrailingZeros_of_length_le {least : ℕ} {digits : List Char}
    (h : digits.length ≤ least) : dropTrailingZeros least digits = digits := by
  rw [dropTrailingZeros, List.take_of_length_le h, List.drop_of_length_le h]
  exact List.append_nil _

end Pattern

/-! ## §3 The digits that follow a pattern -/

/-- The number that a pattern writes: a hundred times as much if a percent sign stands around its
core. -/
def scaledValue (before after : List Char) (x : Float) : Float :=
  if '%' ∈ before ∨ '%' ∈ after then x * 100.0 else x

/-- The most digits behind the point that the fraction of a core allows. -/
def mostDigits (fraction : List Char) : ℕ := fraction.countP fun c => c == '0' || c == '#'

/-- The digits that a rounded number has before and behind the point, as the two parts of a core
ask. -/
structure Follows (integer fraction : List Char) (rounded : Float) (whole decimals : List Char) :
    Prop where
  /-- Separators apart, there are only digits. -/
  digits : ∀ c ∈ whole.filter (· != ',') ++ decimals, c.isDigit = true
  /-- Before the point there are at least the digits asked for. -/
  width : integer.count '0' ≤ (whole.filter (· != ',')).length
  /-- Separators stand every three digits from the point if the core has one, and else nowhere. -/
  separators : if ',' ∈ integer then InThousands whole else ',' ∉ whole
  /-- Behind the point there are at least the digits asked for. -/
  least : fraction.count '0' ≤ decimals.length
  /-- Behind the point there are no more than the digits allowed. -/
  most : decimals.length ≤ mostDigits fraction
  /-- A zero is the last digit only if it is asked for. -/
  trimmed : fraction.count '0' < decimals.length → decimals.getLast? ≠ some '0'
  /-- The digits denote the number that the rounded number denotes with all its places. -/
  denotes : ∃ d d', readDecimal false (whole.filter (· != ',') ++ pointed decimals) = some d ∧
    readDecimal false (fixedMagnitude (mostDigits fraction) rounded.abs) = some d' ∧
    d.size = d'.size

/-- Zeros at the end of the digits behind the point do not count. -/
theorem size_append_zeros (negative : Bool) (digits decimals : List Char) (n : ℕ) :
    (⟨negative, digitsValue (digits ++ (decimals ++ List.replicate n '0')),
      -((decimals ++ List.replicate n '0').length : ℤ)⟩ : Decimal).size =
      (⟨negative, digitsValue (digits ++ decimals), -(decimals.length : ℤ)⟩ : Decimal).size := by
  rw [Decimal.size, Decimal.size, ← List.append_assoc, digitsValue_append _ (List.replicate n '0'),
    digitsValue_zeros, Nat.add_zero, List.length_append, List.length_replicate, Nat.cast_mul,
    Nat.cast_add, neg_add, zpow_add₀ (by norm_num), zpow_neg _ (n : ℤ), zpow_natCast, Nat.cast_pow,
    Nat.cast_ofNat]
  field_simp

/-- Before the point, zeros are put in front, or a lone zero is left out. -/
theorem Pattern.exists_wholeDigits_eq (p : Pattern) {whole : List Char} (hwhole : IsDigits whole)
    (decimals : List Char) :
    ∃ digits, p.wholeDigits whole decimals =
        (if p.grouped then groupThousands digits else digits) ∧
      (∀ c ∈ digits, c.isDigit = true) ∧ p.minWhole ≤ digits.length ∧
      digits ++ decimals ≠ [] ∧ digitsValue digits = digitsValue whole := by
  -- A zero in front of the point is left out where the pattern asks for no digits there.
  obtain ⟨kept, hkept, hdigits, hne, hvalue⟩ : ∃ kept,
      kept = (if whole == ['0'] && p.minWhole == 0 && !decimals.isEmpty then [] else whole) ∧
      (∀ c ∈ kept, c.isDigit = true) ∧ kept ++ decimals ≠ [] ∧
      digitsValue kept = digitsValue whole := by
    refine ⟨_, rfl, ?_⟩
    split
    · rename_i hzero
      simp only [Bool.and_eq_true, beq_iff_eq, Bool.not_eq_true', List.isEmpty_eq_false_iff]
        at hzero
      rw [hzero.1.1]
      exact ⟨by simp, hzero.2, rfl⟩
    · exact ⟨hwhole.2, by simp [hwhole.1], rfl⟩
  -- Then zeros are put in front, up to the width; they change neither the value nor the class.
  refine ⟨List.replicate (p.minWhole - kept.length) '0' ++ kept, ?_, ?_, ?_, ?_, ?_⟩
  · rw [wholeDigits, ← hkept]
  · intro c hc
    rcases List.mem_append.mp hc with hc | hc
    · exact isDigit_of_mem_replicate hc
    · exact hdigits c hc
  · rw [List.length_append, List.length_replicate]
    omega
  · rw [List.append_assoc]
    exact List.append_ne_nil_of_right_ne_nil _ hne
  · rw [digitsValue_zeros_append, hvalue]

/-- The digits that a rounded number is written with follow the core of the pattern. -/
theorem exists_follows {integer fraction : List Char} {rounded : Float}
    (hfinite : rounded.isFinite = true) {p : Pattern} (hgrouped : p.grouped = integer.contains ',')
    (hwidth : p.minWhole = integer.count '0') (hleast : p.minFraction = fraction.count '0')
    (hmost : p.maxFraction = mostDigits fraction) :
    ∃ whole places, splitPoint (fixedMagnitude p.maxFraction rounded) = (whole, places) ∧
      Follows integer fraction rounded
        (p.wholeDigits whole (Pattern.dropTrailingZeros p.minFraction (places.getD [])))
        (Pattern.dropTrailingZeros p.minFraction (places.getD [])) := by
  obtain ⟨whole, places, htext, hdigits, hplaces, hlength⟩ :=
    exists_fixedMagnitude_eq hfinite p.maxFraction
  obtain ⟨rest, hsplit, hrest⟩ := splitPoint_pointed (point_not_mem hdigits.2) places
  refine ⟨whole, rest, htext ▸ hsplit, ?_⟩
  rw [hrest]
  -- Behind the point zeros were dropped, before it zeros were added or one was left out.
  obtain ⟨n, hn⟩ := Pattern.exists_dropTrailingZeros_append p.minFraction places
  have hlast := @Pattern.getLast?_dropTrailingZeros p.minFraction places
  have hmin : p.minFraction ≤ places.length := by
    rw [hlength, hleast, hmost]
    exact List.countP_mono_left fun c _ hc => by rw [hc, Bool.true_or]
  have hle := Pattern.le_length_dropTrailingZeros hmin
  generalize Pattern.dropTrailingZeros p.minFraction places = decimals at *
  -- Before the point commas may be put in; without them the digits are what was kept.
  obtain ⟨digits, hwhole, hdigit, hmany, hne, hvalue⟩ := p.exists_wholeDigits_eq hdigits decimals
  have hcomma := comma_not_mem hdigit
  have hbare : (p.wholeDigits whole decimals).filter (· != ',') = digits := by
    rw [hwhole, filter_grouped hcomma]
  have hdecimal : ∀ c ∈ decimals, c.isDigit = true := fun c hc =>
    hplaces c (hn ▸ List.mem_append_left _ hc)
  refine ⟨?_, by rw [hbare, ← hwidth]; exact hmany, ?_, hleast ▸ hle, ?_, ?_, ?_⟩
  · rw [hbare]
    exact fun c hc => (List.mem_append.mp hc).elim (hdigit c) (hdecimal c)
  · by_cases hmem : ',' ∈ integer
    · rw [if_pos hmem, hwhole, if_pos (hgrouped.trans (List.contains_iff_mem.mpr hmem))]
      exact inThousands_groupThousands hcomma
    · rw [if_neg hmem, hwhole, if_neg (by rwa [hgrouped, List.contains_iff_mem])]
      exact hcomma
  · rw [← hmost, ← hlength, hn, List.length_append]
    exact Nat.le_add_right _ _
  · rw [← hleast]
    exact hlast
  · -- Neither change touches the value that is read.
    rw [hbare, ← hmost, fixedMagnitude_abs, htext]
    refine ⟨_, _, readDecimal_pointed false hdigit hdecimal hne,
      readDecimal_pointed false hdigits.2 hplaces (by simp [hdigits.1]), ?_⟩
    rw [hn, size_append_zeros, digitsValue_append, hvalue, ← digitsValue_append]

/-- A number is written as a sign, the text before the core, digits that follow the core, and the
text behind it. -/
theorem exists_applyTo_eq {integer fraction : List Char} {p : Pattern} {x : Float}
    (hfinite : (if p.percent then x * 100.0 else x).isFinite = true)
    (hgrouped : p.grouped = integer.contains ',') (hwidth : p.minWhole = integer.count '0')
    (hleast : p.minFraction = fraction.count '0') (hmost : p.maxFraction = mostDigits fraction) :
    let rounded := roundHalfUp (if p.percent then x * 100.0 else x) p.maxFraction
    ∃ whole decimals, p.applyTo x = (if rounded < 0 then ['-'] else []) ++ p.before ++ whole ++
        pointed decimals ++ p.after ∧
      Follows integer fraction rounded whole decimals := by
  intro rounded
  obtain ⟨whole, places, hsplit, hfollows⟩ :=
    exists_follows (isFinite_roundHalfUp hfinite p.maxFraction) hgrouped hwidth hleast hmost
  -- The rounded number is split at its point, and the sign in front is that of the number.
  refine ⟨_, _, ?_, hfollows⟩
  have hsplit' : splitPoint (fixedMagnitude p.maxFraction
      (roundHalfUp (if p.percent then x * 100.0 else x) p.maxFraction)) = (whole, places) := hsplit
  rw [Pattern.applyTo]
  dsimp only
  rw [hsplit']
  show (if rounded < 0 then '-' :: _ else _) = _
  split
  · simp [pointed]
  · simp [pointed]

/-- What a pattern with a core makes of a number that is finite once it is scaled. -/
theorem HasCore.exists_patterned_eq {pattern : String}
    {before core after integer fraction : List Char}
    (hcore : HasCore pattern.toList before core after) (hsplit : PointSplit core integer fraction)
    {x : Float} (hfinite : (scaledValue before after x).isFinite = true) :
    let rounded := roundHalfUp (scaledValue before after x) (mostDigits fraction)
    ∃ whole decimals, (patterned x pattern).toList =
        (if rounded < 0 then ['-'] else []) ++ before ++ whole ++ pointed decimals ++ after ∧
      Follows integer fraction rounded whole decimals := by
  -- The number is taken a hundredfold just when a percent sign stands around the core.
  have hscaled : scaledValue before after x =
      if before.contains '%' || after.contains '%' then x * 100.0 else x := by
    simp [scaledValue]
  rw [hscaled] at hfinite
  rw [patterned, hcore.ofChars?_eq hsplit, hscaled]
  dsimp only
  rw [String.toList_ofList]
  exact exists_applyTo_eq hfinite rfl rfl rfl rfl

/-! ## §4 Patterns with fixed places -/

/-- The text of a magnitude, finite or not: something before the point, and at most so many digits
behind it. -/
theorem exists_fixedMagnitude_parts (r : Float) (places : ℕ) :
    ∃ whole fraction, fixedMagnitude places r = whole ++ pointed fraction ∧ '.' ∉ whole ∧
      fraction.length ≤ places ∧ ∃ c rest, whole = c :: rest ∧ c ≠ '-' := by
  cases hfinite : r.isFinite with
  | false =>
    -- The standard writes a word, which begins with a letter.
    rcases fixedMagnitude_of_not_finite hfinite places with h | h <;> rw [h]
    · exact ⟨"NaN".toList, [], rfl, by decide, Nat.zero_le _, 'N', ['a', 'N'], rfl, by decide⟩
    · exact ⟨"inf".toList, [], rfl, by decide, Nat.zero_le _, 'i', ['n', 'f'], rfl, by decide⟩
  | true =>
    -- A finite number begins with a digit.
    obtain ⟨whole, fraction, htext, hdigits, -, hlength⟩ := exists_fixedMagnitude_eq hfinite places
    obtain ⟨c, rest, rfl⟩ := List.exists_cons_of_ne_nil hdigits.1
    refine ⟨_, fraction, htext, point_not_mem hdigits.2, hlength.le, c, rest, rfl, ?_⟩
    rintro rfl
    exact absurd (hdigits.2 '-' List.mem_cons_self) (by decide)

theorem fixedBody_eq {r : Float} {places : ℕ} {whole fraction : List Char}
    (h : fixedMagnitude places r = whole ++ pointed fraction) (hwhole : '.' ∉ whole)
    (grouped : Bool) :
    fixedBody r places grouped =
      (if grouped then groupThousands whole else whole) ++ pointed fraction := by
  rw [fixedBody, h]
  by_cases hnil : fraction = []
  · subst hnil
    have hnone : whole ++ pointed [] = whole := List.append_nil _
    rw [hnone, splitPoint_of_not_mem hwhole]
    exact (List.append_nil _).symm
  · rw [pointed_of_ne_nil hnil, splitPoint_cons_point hwhole]

theorem countP_zeros (places : ℕ) :
    (List.replicate places '0').countP (fun c => c == '0' || c == '#') = places := by
  rw [List.countP_replicate]
  rfl

/-- A pattern that asks for one digit before the point, and behind it for as many as it allows,
writes a number with fixed places. -/
theorem Pattern.applyTo_eq_fixedBody {p : Pattern} (hwidth : p.minWhole = 1)
    (hplaces : p.minFraction = p.maxFraction) (x : Float) :
    let rounded := roundHalfUp (if p.percent then x * 100.0 else x) p.maxFraction
    p.applyTo x = (if rounded < 0 then ['-'] else []) ++ p.before ++
      fixedBody rounded p.maxFraction p.grouped ++ p.after := by
  intro rounded
  obtain ⟨whole, fraction, htext, hpoint, hlength, c, rest, hwhole, -⟩ :=
    exists_fixedMagnitude_parts rounded p.maxFraction
  obtain ⟨rest', hsplit, hrest⟩ := splitPoint_pointed hpoint fraction
  -- One digit is asked for, so that nothing is added before the point or left out.
  have hdigits : p.wholeDigits whole fraction =
      if p.grouped then groupThousands whole else whole := by
    simp [wholeDigits, hwidth, hwhole]
  -- The sign, the literal parts and the digits are put together as they are for a plain number.
  have hbody : p.applyTo x = if rounded < 0
      then '-' :: (p.before ++ p.wholeDigits whole fraction ++ pointed fraction ++ p.after)
      else p.before ++ p.wholeDigits whole fraction ++ pointed fraction ++ p.after := by
    have htext' : fixedMagnitude p.maxFraction
        (roundHalfUp (if p.percent then x * 100.0 else x) p.maxFraction) =
        whole ++ pointed fraction := htext
    rw [applyTo]
    dsimp only
    rw [htext', hsplit]
    dsimp only
    rw [hrest, dropTrailingZeros_of_length_le (hlength.trans hplaces.ge)]
    rfl
  rw [hbody, fixedBody_eq htext hpoint, hdigits]
  split <;> simp

/-! ## §5 The result -/

/-- **Number patterns are applied faithfully.** A pattern with a core character has a core, in which
the part before the first point, if there is one, is its integer part and the part behind that its
fraction. A number that is finite once it is scaled is written with a minus sign exactly if it is
below zero once it is rounded to the places that the fraction allows, the text before the core,
digits that follow the two parts of the core, and the text behind it. -/
theorem patterned_faithful (x : Float) (pattern : String) :
    ((∃ c ∈ pattern.toList, isCoreChar c = true) →
      ∃ before core after integer fraction, HasCore pattern.toList before core after ∧
        PointSplit core integer fraction) ∧
    ∀ before core after integer fraction, HasCore pattern.toList before core after →
      PointSplit core integer fraction → (scaledValue before after x).isFinite = true →
      let rounded := roundHalfUp (scaledValue before after x) (mostDigits fraction)
      ∃ whole decimals, (patterned x pattern).toList =
          (if rounded < 0 then ['-'] else []) ++ before ++ whole ++ pointed decimals ++ after ∧
        Follows integer fraction rounded whole decimals := by
  -- First that every pattern has such parts, then what is printed by them.
  refine ⟨fun h => ?_, fun before core after integer fraction hcore hsplit hfinite => ?_⟩
  · obtain ⟨before, core, after, hcore⟩ := exists_hasCore h
    obtain ⟨integer, fraction, hsplit⟩ := exists_pointSplit core
    exact ⟨before, core, after, integer, fraction, hcore, hsplit⟩
  · exact hcore.exists_patterned_eq hsplit hfinite

/-- A pattern with a symbol, separators and one place, for a number below zero. -/
theorem patterned_faithful_loss :
    HasCore "¥#,##0.0".toList ['¥'] "#,##0.0".toList [] ∧
    PointSplit "#,##0.0".toList "#,##0".toList ['0'] ∧
    (scaledValue ['¥'] [] (-9876.543)).isFinite = true ∧
    ∃ whole decimals, (patterned (-9876.543) "¥#,##0.0").toList =
        (if roundHalfUp (scaledValue ['¥'] [] (-9876.543)) (mostDigits ['0']) < 0 then ['-']
          else []) ++ ['¥'] ++ whole ++ pointed decimals ++ [] ∧
      Follows "#,##0".toList ['0']
        (roundHalfUp (scaledValue ['¥'] [] (-9876.543)) (mostDigits ['0'])) whole decimals := by
  -- The core is everything behind the currency sign, up to the last zero.
  have hcore : HasCore "¥#,##0.0".toList ['¥'] "#,##0.0".toList [] :=
    ⟨rfl, List.forall_mem_singleton.mpr rfl, List.forall_mem_nil _, ⟨_, _, rfl, by decide⟩,
      ⟨"#,##0.".toList, '0', rfl, by decide⟩⟩
  have hsplit : PointSplit "#,##0.0".toList "#,##0".toList ['0'] := ⟨by decide, .inr rfl⟩
  have hfinite : (scaledValue ['¥'] [] (-9876.543)).isFinite = true := by decide +kernel
  exact ⟨hcore, hsplit, hfinite,
    (patterned_faithful (-9876.543) "¥#,##0.0").2 _ _ _ _ _ hcore hsplit hfinite⟩

/-- The text of that number. -/
example : patterned (-9876.543) "¥#,##0.0" = "-¥9,876.5" := by decide +kernel

end BandedReport.Amount
