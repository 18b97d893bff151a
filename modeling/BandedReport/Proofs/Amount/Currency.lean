import BandedReport.Formula.Functions.Format
import BandedReport.Print.Value
import BandedReport.Proofs.Amount.Pattern
import BandedReport.Proofs.Formula.Calls

/-!
# Three ways to write money

An amount of money is written by the formatter for currencies, by a number pattern with the symbol
in front, and by the formatter for fixed places with the symbol put behind the sign. One rounds the
magnitude and takes the sign from a second rounding, one reads a pattern and pads and trims digits,
one rounds the signed amount; all give the same text.

* `withSymbol` puts a symbol behind the sign, `moneyPattern` is the pattern with the symbol;
* `decimalsArgument_ofNat` and `format_number` say what the functions make of their arguments;
* `money_formatters_agree` is the result.
-/

namespace BandedReport

/-! ## §1 Arguments -/

namespace Formula

/-- A count that is small enough is taken as it is. -/
theorem decimalsArgument_ofNat (function : String) (args : List Scalar) (index default : ℕ)
    {n : ℕ} (h : args[index]? = some (.number (Float.ofNat n))) (hn : n ≤ maxDecimals) :
    decimalsArgument function args index default = .ok n := by
  have hsmall : n ≤ 20 := hn
  have hindex : index < args.length := (List.getElem?_eq_some_iff.mp h).1
  have hinteger : integerArgument function args index = .ok (n : ℤ) := by
    have hmax : n ≤ maxInteger := hsmall.trans (by decide)
    exact integerArgument_eq h (worth_ofNat (by omega)) (by rwa [Int.natAbs_natCast])
  rw [decimalsArgument, if_pos hindex, hinteger]
  show Except.ok (min n maxDecimals) = Except.ok n
  rw [Nat.min_eq_left hn]

/-- A number is formatted by a number pattern, whatever the pattern says of dates. -/
theorem format_number (x : Float) (pattern : String) :
    Format.format [.number x, .text pattern] = .ok (.text (Amount.patterned x pattern)) := by
  have hnone : (if DateTime.isPattern (charsArgument [.number x, .text pattern] 1) then
      (argument [.number x, .text pattern] 0).asDate? else none) = none := ite_self _
  have hchars : charsArgument [.number x, .text pattern] 1 = pattern.toList := rfl
  have hnumber : numberArgument "FORMAT" [.number x, .text pattern] 0 = .ok x := rfl
  simp only [Format.format, hnone, hnumber, bind, Except.bind]
  rw [hchars, String.ofList_toList]
  rfl

end Formula

namespace Amount

/-! ## §2 Signs and symbols -/

/-- A text with a symbol put in front of it, but behind its sign. -/
def withSymbol (symbol : List Char) : List Char → List Char
  | '-' :: digits => '-' :: (symbol ++ digits)
  | digits => symbol ++ digits

/-- The pattern for money: a symbol, separators, and so many places. -/
def moneyPattern (symbol : String) (places : ℕ) : String :=
  String.ofList (symbol.toList ++ ("#,##0".toList ++ pointed (List.replicate places '0')))

theorem withSymbol_of_ne {symbol : List Char} {c : Char} {rest : List Char} (h : c ≠ '-') :
    withSymbol symbol (c :: rest) = symbol ++ c :: rest := by
  unfold withSymbol
  split
  · rename_i heq
    exact absurd (List.cons.inj heq).1 h
  · rfl

theorem exists_fixedBody_cons (r : Float) (places : ℕ) (grouped : Bool) :
    ∃ c rest, fixedBody r places grouped = c :: rest ∧ c ≠ '-' := by
  obtain ⟨whole, fraction, htext, hpoint, -, c, rest, rfl, hc⟩ :=
    exists_fixedMagnitude_parts r places
  rw [fixedBody_eq htext hpoint]
  refine ⟨c, ?_⟩
  split
  · rw [groupThousands]
    split <;> exact ⟨_, rfl, hc⟩
  · exact ⟨_, rfl, hc⟩

/-- The text of an amount with a symbol: sign, symbol, and the digits of the rounded amount. -/
theorem withSymbol_fixedChars (symbol : List Char) (x : Float) (places : ℕ) (grouped : Bool) :
    withSymbol symbol (fixedChars x places grouped) =
      (if roundHalfUp x places < 0 then ['-'] else []) ++ symbol ++
        fixedBody (roundHalfUp x places) places grouped := by
  rw [fixedChars]
  split
  · rfl
  · obtain ⟨c, rest, hbody, hc⟩ := exists_fixedBody_cons (roundHalfUp x places) places grouped
    rw [hbody, withSymbol_of_ne hc]
    rfl

theorem currency_eq (x : Float) (symbol : String) (places : ℕ) :
    currency x symbol places =
      String.ofList (withSymbol symbol.toList (fixedChars x places true)) := by
  rw [withSymbol_fixedChars, currency, fixedChars_abs]
  split <;> rfl

/-! ## §3 The pattern for money -/

theorem hasCore_moneyPattern {symbol : String}
    (hsymbol : ∀ c ∈ symbol.toList, isCoreChar c = false) (places : ℕ) :
    HasCore (moneyPattern symbol places).toList symbol.toList
      ("#,##0".toList ++ pointed (List.replicate places '0')) [] where
  eq := by rw [moneyPattern, String.toList_ofList, List.append_nil]
  before_free := hsymbol
  after_free := List.forall_mem_nil _
  first := ⟨_, _, rfl, rfl⟩
  last := by
    cases places with
    | zero => exact ⟨"#,##".toList, '0', rfl, rfl⟩
    | succ n =>
      refine ⟨"#,##0".toList ++ '.' :: List.replicate n '0', '0', ?_, rfl⟩
      rw [pointed_of_ne_nil (by simp), List.replicate_succ', List.append_assoc]
      rfl

theorem pointSplit_moneyPattern (places : ℕ) :
    PointSplit ("#,##0".toList ++ pointed (List.replicate places '0')) "#,##0".toList
      (List.replicate places '0') := by
  refine ⟨by decide, ?_⟩
  cases places with
  | zero => exact .inl ⟨rfl, rfl⟩
  | succ n => exact .inr (by rw [pointed_of_ne_nil (by simp)])

theorem ofChars?_moneyPattern {symbol : String}
    (hsymbol : ∀ c ∈ symbol.toList, isCoreChar c = false ∧ c ≠ '%') (places : ℕ) :
    Pattern.ofChars? (moneyPattern symbol places).toList = some {
      before := symbol.toList, after := [], percent := false, grouped := true
      minWhole := 1, minFraction := places, maxFraction := places } := by
  have hpercent : (symbol.toList.contains '%' || [].contains '%') = false := by
    simpa using fun h : '%' ∈ symbol.toList => (hsymbol _ h).2 rfl
  rw [(hasCore_moneyPattern (fun c hc => (hsymbol c hc).1) places).ofChars?_eq
    (pointSplit_moneyPattern places), hpercent, countP_zeros, List.count_replicate_self]
  rfl

theorem patterned_moneyPattern {symbol : String}
    (hsymbol : ∀ c ∈ symbol.toList, isCoreChar c = false ∧ c ≠ '%') (x : Float) (places : ℕ) :
    patterned x (moneyPattern symbol places) =
      String.ofList (withSymbol symbol.toList (fixedChars x places true)) := by
  rw [patterned, ofChars?_moneyPattern hsymbol, withSymbol_fixedChars]
  dsimp only
  rw [Pattern.applyTo_eq_fixedBody rfl rfl, List.append_nil, if_neg Bool.false_ne_true]

/-! ## §4 The result -/

/-- **The money formatters agree.** The formatter for currencies, the pattern with the symbol, the
functions that apply them and the currency format of printed values all give the text with fixed
places and separators, the symbol put behind its sign. -/
theorem money_formatters_agree (x : Float) {symbol : String}
    (hsymbol : ∀ c ∈ symbol.toList, isCoreChar c = false ∧ c ≠ '%') {places : ℕ}
    (hplaces : places ≤ 20) :
    let money := fun symbol : String =>
      String.ofList (withSymbol symbol.toList (fixedChars x places true))
    currency x symbol places = money symbol ∧
    patterned x (moneyPattern symbol places) = money symbol ∧
    Formula.Format.currency [.number x, .text symbol, .number (Float.ofNat places)] =
      .ok (.text (money symbol)) ∧
    Formula.Format.format [.number x, .text (moneyPattern symbol places)] =
      .ok (.text (money symbol)) ∧
    (⟨.currency, some places⟩ : ValueFormat).print (.number x) = money defaultSymbol := by
  intro money
  refine ⟨currency_eq x symbol places, patterned_moneyPattern hsymbol x places, ?_, ?_, ?_⟩
  · -- The function of formulas takes the places from its third argument.
    have hdecimals := Formula.decimalsArgument_ofNat "CURRENCY"
      [.number x, .text symbol, .number (Float.ofNat places)] 2 2 rfl hplaces
    have hnumber : Formula.numberArgument "CURRENCY"
        [.number x, .text symbol, .number (Float.ofNat places)] 0 = .ok x := rfl
    simp only [Formula.Format.currency, hnumber, hdecimals, bind, Except.bind]
    show Except.ok (Scalar.text (currency x (String.ofList symbol.toList) places)) = _
    rw [String.ofList_toList, currency_eq]
  · rw [Formula.format_number, patterned_moneyPattern hsymbol]
  · -- The format takes up to twenty places as they are.
    have hdecimals : ValueFormat.decimals ⟨.currency, some places⟩ = places :=
      Nat.min_eq_left hplaces
    show currency x defaultSymbol (ValueFormat.decimals ⟨.currency, some places⟩) = _
    rw [hdecimals, currency_eq]

/-- An amount below zero in a currency whose symbol stands for itself. -/
theorem money_formatters_agree_euro :
    (∀ c ∈ "€".toList, isCoreChar c = false ∧ c ≠ '%') ∧ 2 ≤ 20 ∧
    let money := fun symbol : String =>
      String.ofList (withSymbol symbol.toList (fixedChars (-1234.5) 2 true))
    currency (-1234.5) "€" 2 = money "€" ∧
    patterned (-1234.5) (moneyPattern "€" 2) = money "€" ∧
    Formula.Format.currency [.number (-1234.5), .text "€", .number (Float.ofNat 2)] =
      .ok (.text (money "€")) ∧
    Formula.Format.format [.number (-1234.5), .text (moneyPattern "€" 2)] =
      .ok (.text (money "€")) ∧
    (⟨.currency, some 2⟩ : ValueFormat).print (.number (-1234.5)) = money defaultSymbol := by
  have hsymbol : ∀ c ∈ "€".toList, isCoreChar c = false ∧ c ≠ '%' :=
    List.forall_mem_singleton.mpr ⟨rfl, by decide⟩
  exact ⟨hsymbol, by decide, money_formatters_agree (-1234.5) hsymbol (by decide)⟩

/-- The text of that amount, which is rounded away from zero. -/
example : currency (-1234.565) "€" 2 = "-€1,234.57" := by decide +kernel

end Amount

end BandedReport
