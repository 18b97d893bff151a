import BandedReport.Proofs.Amount.Currency

/-!
# Percentages

A percentage is written by the format for percentages and by a pattern with a percent sign, with the
same text. Both scale the number by a hundred in double arithmetic, and round what results on its
decimal text. The product can lie just below a tie where the decimal of the number, its point moved
by two places, is the tie; then the text is not that of the double nearest to the moved decimal.

* `decimalUnits?` counts the units of the last place nearest to the decimal of a number;
* `percentPattern` is the pattern for percentages;
* `percent_formatters_agree` is the result, `percent_formatters_agree_tie` a number that is written
  differently from its moved decimal.
-/

namespace BandedReport.Amount

open Float.Model.UnpackedFloat (Sign)

/-! ## §1 Rounded amounts are known from their texts -/

theorem comma_not_mem_fixedMagnitude (places : ℕ) (r : Float) :
    ',' ∉ fixedMagnitude places r := by
  cases hfinite : r.isFinite with
  | false => rcases fixedMagnitude_of_not_finite hfinite places with h | h <;> rw [h] <;> decide
  | true =>
    obtain ⟨whole, fraction, htext, hwhole, hfraction, -⟩ := exists_fixedMagnitude_eq hfinite places
    rw [htext, List.mem_append, not_or]
    refine ⟨comma_not_mem hwhole.2, ?_⟩
    unfold pointed
    split
    · exact List.not_mem_nil
    · simpa using comma_not_mem hfraction

/-- Without the separators, the text is the plain one. -/
theorem filter_fixedBody (r : Float) (places : ℕ) (grouped : Bool) :
    (fixedBody r places grouped).filter (· != ',') = fixedMagnitude places r := by
  obtain ⟨whole, fraction, htext, hpoint, -⟩ := exists_fixedMagnitude_parts r places
  have hcomma : ',' ∉ whole ++ pointed fraction := htext ▸ comma_not_mem_fixedMagnitude places r
  have hwhole : ',' ∉ whole := fun h => hcomma (List.mem_append_left _ h)
  have hfraction : ',' ∉ pointed fraction := fun h => hcomma (List.mem_append_right _ h)
  rw [fixedBody_eq htext hpoint, htext, List.filter_append, filter_of_not_mem hfraction,
    filter_grouped hwhole]

/-- Texts are the same only if the digits are, for what is not a sign follows the sign. -/
theorem fixedBody_eq_of_fixedChars_eq {x y : Float} {places : ℕ} {grouped : Bool}
    (h : fixedChars x places grouped = fixedChars y places grouped) :
    fixedBody (roundHalfUp x places) places grouped =
      fixedBody (roundHalfUp y places) places grouped := by
  have hstrip (z : Float) : (fixedChars z places grouped).dropWhile (· == '-') =
      fixedBody (roundHalfUp z places) places grouped := by
    obtain ⟨c, rest, hbody, hc⟩ := exists_fixedBody_cons (roundHalfUp z places) places grouped
    rw [fixedChars, hbody]
    split <;> simp [hc]
  rw [← hstrip x, h, hstrip]

/-- The text of a finite number is not that of infinity or of a missing number. -/
theorem isFinite_of_fixedMagnitude_eq {r t : Float} {places : ℕ} (ht : t.isFinite = true)
    (h : fixedMagnitude places r = fixedMagnitude places t) : r.isFinite = true := by
  obtain ⟨whole, fraction, htext, hwhole, -⟩ := exists_fixedMagnitude_eq ht places
  obtain ⟨c, rest, rfl⟩ := List.exists_cons_of_ne_nil hwhole.1
  have hdigit : c.isDigit = true := hwhole.2 c List.mem_cons_self
  by_contra hfinite
  rcases fixedMagnitude_of_not_finite (eq_false_of_ne_true hfinite) places with hr | hr <;>
    rw [hr, htext] at h <;> rw [← (List.cons.inj h).1] at hdigit <;> cases hdigit

/-- With few places, numbers of one sign have the same text just if they are rounded to the same
number. -/
theorem fixedChars_eq_iff {x y : Float} {s : Sign} {q : ℚ} (hy : HasValue y s q)
    (hx : x.isFinite = true → ∃ p, HasValue x s p) {places : ℕ} (hplaces : places ≤ 22)
    (grouped : Bool) :
    fixedChars x places grouped = fixedChars y places grouped ↔
      roundHalfUp x places = roundHalfUp y places := by
  constructor
  · intro h
    -- Without the commas the texts are digits with a point.
    have hdigits := congrArg (List.filter (· != ',')) (fixedBody_eq_of_fixedChars_eq h)
    rw [filter_fixedBody, filter_fixedBody] at hdigits
    have hround := isFinite_of_fixedMagnitude_eq (isFinite_roundHalfUp hy.isFinite places) hdigits
    have hfinite : x.isFinite = true := by
      by_contra hinfinite
      rw [roundHalfUp_of_not_finite (eq_false_of_ne_true hinfinite)] at hround
      exact hinfinite hround
    -- What is left are the digits of two finite numbers of one sign.
    obtain ⟨p, hvalue⟩ := hx hfinite
    exact roundHalfUp_eq_of_fixedMagnitude_eq hvalue hy hplaces hdigits
  · -- What is printed depends on the number only through its rounding.
    intro h
    rw [fixedChars, fixedChars, h]

/-! ## §2 Units of the last place -/

theorem isFinite_of_ofFloat? {x : Float} {d : Decimal} (h : Decimal.ofFloat? x = some d) :
    x.isFinite = true := by
  cases hv : Binary.ofFloat x with
  | nan | infinite =>
    rw [Decimal.ofFloat?, hv] at h
    cases h
  | finite v => exact isFinite_of_ofFloat hv

theorem hasValue_hundred : HasValue 100.0 .positive 100 := by
  have hpower := hasValue_powerOfTen 2
  norm_num at hpower
  exact hpower

/-- The units of the last place nearest to the decimal of a number, a half going up; none if the
number does not fit a fixed-size decimal. -/
def decimalUnits? (places : ℕ) (x : Float) : Option ℕ :=
  (Decimal.ofFloat? x).map (·.units places)

/-- Numbers of one sign with the same units are rounded to the same number. -/
theorem roundHalfUp_eq_of_decimalUnits? {x y : Float} {s : Sign} {p q : ℚ}
    (hx : HasValue x s p) (hy : HasValue y s q) {places k : ℕ}
    (hplaces : places ≤ Decimal.maxPlaces)
    (hxunits : decimalUnits? places x = some k) (hyunits : decimalUnits? places y = some k) :
    roundHalfUp x places = roundHalfUp y places := by
  -- The units, of which there are `k`, determine the rounded number.
  have hunits {z : Float} {r : ℚ} (hz : HasValue z s r) (h : decimalUnits? places z = some k) :
      HasValue (roundHalfUp z places) s (nearestUnits places k) := by
    obtain ⟨v, hv, hs, -⟩ := hz.ofFloat_eq
    have hround := hasValue_roundHalfUp hv hs places
    rw [decimalUnits?, Decimal.ofFloat?_eq hv] at h
    split at h
    · rename_i hfits
      rw [roundedSize, if_pos ⟨hplaces, hfits⟩] at hround
      rwa [← Option.some.inj h]
    · cases h
  exact (hunits hx hxunits).eq (hunits hy hyunits)

/-- The decimal of a number with its point moved by two places. -/
def hundredfold (v : Binary) : Decimal :=
  { v.shortest .up with exponent := (v.shortest .up).exponent + 2 }

theorem size_hundredfold (v : Binary) : (hundredfold v).size = (v.shortest .up).size * 100 := by
  rw [hundredfold, Decimal.size, Decimal.size, zpow_add₀ (by norm_num), mul_assoc]
  norm_num

theorem isNearest_hundredfold {v : Binary} {s : Sign} (hs : v.negative = signBit s) :
    IsNearest (hundredfold v).toFloat s ((v.shortest .up).size * 100) := by
  rw [← size_hundredfold]
  exact Decimal.isNearest_toFloat ((v.shortest_negative .up).trans hs)

/-! ## §3 The pattern for percentages -/

/-- The pattern for percentages with so many places. -/
def percentPattern (places : ℕ) : String :=
  String.ofList ("0.".toList ++ List.replicate places '0' ++ ['%'])

theorem hasCore_percentPattern (places : ℕ) :
    HasCore (percentPattern places).toList [] ("0.".toList ++ List.replicate places '0') ['%'] where
  eq := by rw [percentPattern, String.toList_ofList, List.nil_append]
  before_free := List.forall_mem_nil _
  after_free := List.forall_mem_singleton.mpr rfl
  first := ⟨_, _, rfl, rfl⟩
  last := by
    cases places with
    | zero => exact ⟨['0'], '.', rfl, rfl⟩
    | succ n =>
      refine ⟨"0.".toList ++ List.replicate n '0', '0', ?_, rfl⟩
      rw [List.replicate_succ', List.append_assoc]

theorem ofChars?_percentPattern (places : ℕ) :
    Pattern.ofChars? (percentPattern places).toList = some {
      before := [], after := ['%'], percent := true, grouped := false
      minWhole := 1, minFraction := places, maxFraction := places } := by
  have hsplit : PointSplit ("0.".toList ++ List.replicate places '0') ['0']
      (List.replicate places '0') := ⟨by decide, .inr rfl⟩
  rw [(hasCore_percentPattern places).ofChars?_eq hsplit, countP_zeros, List.count_replicate_self]
  rfl

theorem patterned_percentPattern (x : Float) (places : ℕ) :
    patterned x (percentPattern places) = fixed (x * 100.0) places false ++ "%" := by
  rw [patterned, ofChars?_percentPattern]
  dsimp only
  rw [Pattern.applyTo_eq_fixedBody rfl rfl]
  show _ = String.ofList (fixedChars (x * 100.0) places false) ++ String.ofList ['%']
  rw [fixedChars, ← String.ofList_append, if_pos rfl]
  split <;> rfl

theorem print_percent (x : Float) {places : ℕ} (hplaces : places ≤ 20) :
    (⟨.percent, some places⟩ : ValueFormat).print (.number x) =
      fixed (x * 100.0) places false ++ "%" := by
  have hdecimals : ValueFormat.decimals ⟨.percent, some places⟩ = places :=
    Nat.min_eq_left hplaces
  show fixed (x * 100.0) (ValueFormat.decimals ⟨.percent, some places⟩) false ++ "%" = _
  rw [hdecimals]

/-! ## §4 The result -/

/-- **Percentages.** The format for percentages and the pattern give one text. Take the double
nearest to the decimal of the number with its point moved by two places, and suppose that it fits a
fixed-size decimal. The text of the percentage is that double's text with fixed places just if the
number times a hundred, as the product of doubles, is rounded to the same number. That is so
whenever the decimals of the two lie nearest to the same units of the last place, with no tie in
between. -/
theorem percent_formatters_agree {x p : Float} {v : Binary} {s : Sign}
    (hv : Binary.ofFloat x = .finite v) (hs : v.negative = signBit s)
    (hp : IsNearest p s ((v.shortest .up).size * 100))
    (hfits : (Decimal.ofFloat? p).isSome = true) {places : ℕ} (hplaces : places ≤ 20) :
    let printed := (⟨.percent, some places⟩ : ValueFormat).print (.number x)
    Formula.Format.format [.number x, .text (percentPattern places)] = .ok (.text printed) ∧
    (printed = fixed p places false ++ "%" ↔
      roundHalfUp (x * 100.0) places = roundHalfUp p places) ∧
    (decimalUnits? places (x * 100.0) = decimalUnits? places p →
      printed = fixed p places false ++ "%") := by
  intro printed
  have hprinted : printed = fixed (x * 100.0) places false ++ "%" := print_percent x hplaces
  obtain ⟨d, hd⟩ := Option.isSome_iff_exists.mp hfits
  -- The product of doubles and the double nearest to the exact product are both finite here.
  have hpvalue := hp.hasValue_of_isFinite (isFinite_of_ofFloat? hd)
  have hproduct := (hasValue_of_ofFloat hv hs).mul hasValue_hundred
  rw [Sign.mul_positive] at hproduct
  -- Both doubles have the sign of the number, and so the texts tell what they are rounded to.
  have htext : printed = fixed p places false ++ "%" ↔
      roundHalfUp (x * 100.0) places = roundHalfUp p places := by
    rw [hprinted, String.append_left_inj, fixed, fixed, String.ofList_inj]
    exact fixedChars_eq_iff hpvalue (fun hfinite => ⟨_, hproduct.hasValue_of_isFinite hfinite⟩)
      (hplaces.trans (by decide)) false
  refine ⟨?_, htext, fun hunits => htext.mpr ?_⟩
  · -- The pattern and the format print the same text, whatever the product is.
    rw [Formula.format_number, patterned_percentPattern, hprinted]
  · -- The units of the nearest double are defined, and therefore those of the product.
    have hpunits : decimalUnits? places p = some (d.units places) := by
      rw [decimalUnits?, hd, Option.map_some]
    have hxunits := hunits.trans hpunits
    obtain ⟨e, he, -⟩ := Option.map_eq_some_iff.mp hxunits
    exact roundHalfUp_eq_of_decimalUnits? (hproduct.hasValue_of_isFinite (isFinite_of_ofFloat? he))
      hpvalue (hplaces.trans (by decide)) hxunits hpunits

/-- An eighth is twelve and a half per cent, which is rounded up. -/
theorem percent_formatters_agree_eighth :
    let v : Binary := ⟨false, 4503599627370496, -55⟩
    Binary.ofFloat 0.125 = .finite v ∧ v.negative = signBit .positive ∧
    IsNearest 12.5 .positive ((v.shortest .up).size * 100) ∧
    (Decimal.ofFloat? 12.5).isSome = true ∧ 0 ≤ 20 ∧
    let printed := (⟨.percent, some 0⟩ : ValueFormat).print (.number 0.125)
    Formula.Format.format [.number 0.125, .text (percentPattern 0)] = .ok (.text printed) ∧
    (printed = fixed 12.5 0 false ++ "%" ↔
      roundHalfUp (0.125 * 100.0) (0 : ℕ) = roundHalfUp 12.5 (0 : ℕ)) ∧
    (decimalUnits? 0 (0.125 * 100.0) = decimalUnits? 0 12.5 →
      printed = fixed 12.5 0 false ++ "%") := by
  intro v
  -- Two shifts of the point in the shortest digits give the number nearest to the hundredfold.
  have hv : Binary.ofFloat 0.125 = .finite v := by decide +kernel
  have hmoved : (hundredfold v).toFloat = 12.5 := by decide +kernel
  have hp : IsNearest 12.5 .positive ((v.shortest .up).size * 100) :=
    hmoved ▸ isNearest_hundredfold (s := .positive) rfl
  have hfits : (Decimal.ofFloat? 12.5).isSome = true := by decide +kernel
  exact ⟨hv, rfl, hp, hfits, by decide, percent_formatters_agree hv rfl hp hfits (by decide)⟩

/-- The decimal 1.005 is a hundred and a half per cent, a tie that is rounded up; the product of
doubles lies below the tie, and the percentage is rounded down. -/
theorem percent_formatters_agree_tie :
    let v : Binary := ⟨false, 4526117625507348, -52⟩
    Binary.ofFloat 1.005 = .finite v ∧ v.negative = signBit .positive ∧
    IsNearest 100.5 .positive ((v.shortest .up).size * 100) ∧
    (Decimal.ofFloat? 100.5).isSome = true ∧
    (⟨.percent, some 0⟩ : ValueFormat).print (.number 1.005) = "100%" ∧
    Formula.Format.format [.number 1.005, .text (percentPattern 0)] = .ok (.text "100%") ∧
    fixed 100.5 0 false ++ "%" = "101%" := by
  intro v
  have hmoved : (hundredfold v).toFloat = 100.5 := by decide +kernel
  refine ⟨by decide +kernel, rfl, hmoved ▸ isNearest_hundredfold (s := .positive) rfl,
    by decide +kernel, by decide +kernel, ?_, by decide +kernel⟩
  rw [Formula.format_number]
  have htext : patterned 1.005 (percentPattern 0) = "100%" := by decide +kernel
  rw [htext]

end BandedReport.Amount
