import BandedReport.Proofs.Decimal.Finite
import BandedReport.Proofs.Formula.Reparsing
import BandedReport.Proofs.Outcome

/-!
# Results that are finite

Operators and calls refuse a result that is no finite number: it is reported as a division by zero.
Fields of finite numbers and the numbers of pages and rows are finite as well, and a minus sign
changes nothing about it. Only a literal is not looked at. So a formula over finite data gives a
number that is not finite just when it is a literal with too many digits, with minus signs or
parentheses around it at most.

* `Scalar.isFinite` and `Context.IsFinite` say what finite data are;
* `Expr.isOverflow` says that an expression is such a literal;
* `Operator.isFinite_apply` and `Registry.isFinite_call` are the two checks.
-/

namespace BandedReport

/-! ## §1 Finite data -/

/-- Is the value no number, or a finite one? -/
def Scalar.isFinite : Scalar → Bool
  | .number x => x.isFinite
  | _ => true

theorem Scalar.isFinite_ofNat {n : Nat} (hn : n < 2 ^ 128) : (Scalar.ofNat n).isFinite = true :=
  BandedReport.isFinite_ofNat hn

/-- The fields of the record hold no numbers but finite ones. -/
def Record.IsFinite (r : Record) : Prop := ∀ field ∈ r.fields, field.2.isFinite = true

theorem Record.IsFinite.get? {r : Record} (h : r.IsFinite) {name : String} {value : Scalar}
    (hget : r.get? name = some value) : value.isFinite = true := by
  rw [Record.get?, List.lookup_eq_some_iff] at hget
  obtain ⟨before, after, hfields, -⟩ := hget
  refine h (name, value) ?_
  rw [hfields]
  exact List.mem_append_right _ (List.mem_cons_self ..)

namespace Formula

/-- The master record and the current row hold finite numbers, and the rows and pages can be counted
by a machine. What the other rows hold does not matter. -/
structure Context.IsFinite (ctx : Context) : Prop where
  master : ctx.master.IsFinite
  detailRow : ∀ row, ctx.detailRow = some row → row.IsFinite
  rowIndex : ctx.rowIndex < 2 ^ 64
  pageNumber : ctx.pageNumber < 2 ^ 64
  totalPages : ctx.totalPages < 2 ^ 64
  allRows : ctx.allRows.length < 2 ^ 64
  pageRows : ctx.pageRows.length < 2 ^ 64

theorem isFinite_systemValue {ctx : Context} (hctx : ctx.IsFinite) {name : String}
    {value : Scalar} (h : systemValue? name ctx = some value) : value.isFinite = true := by
  obtain ⟨-, -, hindex, hpage, htotal, hall, hrows⟩ := hctx
  unfold systemValue? at h
  split at h
  case h_4 | h_5 | h_6 | h_7 | h_8 | h_9 =>
    obtain rfl := Option.some.inj h
    exact Scalar.isFinite_ofNat (by omega)
  case h_10 => cases h
  all_goals
    obtain rfl := Option.some.inj h
    rfl

theorem isFinite_resolve {ctx : Context} (hctx : ctx.IsFinite) {name : String} {value : Scalar}
    (h : resolve name ctx = .ok value) : value.isFinite = true := by
  unfold resolve at h
  split at h
  · rename_i found hfound
    cases h
    -- The name is a system variable, a field of the row or a field of the master record.
    rcases Option.or_eq_some_iff.mp hfound with hsystem | ⟨-, hfield⟩
    · exact isFinite_systemValue hctx hsystem
    · rcases Option.or_eq_some_iff.mp hfield with hrow | ⟨-, hmaster⟩
      · obtain ⟨row, hdetail, hget⟩ := Option.bind_eq_some_iff.mp hrow
        exact (hctx.detailRow row hdetail).get? hget
      · exact hctx.master.get? hmaster
  · cases h

/-! ## §2 Checked results -/

theorem finiteOutcome_eq (value : Scalar) :
    finiteOutcome value = if value.isFinite then .ok value else .error .divideByZero := by
  cases value <;> rfl

theorem isFinite_of_finiteOutcome {value v : Scalar} (h : finiteOutcome value = .ok v) :
    v.isFinite = true := by
  rw [finiteOutcome_eq] at h
  split at h
  · cases h
    assumption
  · cases h

/-- A finite operand stands for a finite number. -/
theorem isFinite_operandNumber {operator : Char} {value : Scalar} {x : Float}
    (hvalue : value.isFinite = true) (h : operandNumber operator value = .ok x) :
    x.isFinite = true := by
  cases value with
  | number y =>
    cases h
    exact hvalue
  | boolean b => cases b <;> cases h <;> decide +kernel
  | null =>
    cases h
    decide +kernel
  | text | date => cases h

namespace Operator

/-- The result of an operator on doubles, whether it is finite or not. -/
def arithmetic : Operator → Float → Float → Float
  | add => (· + ·)
  | subtract => (· - ·)
  | multiply => (· * ·)
  | divide => (· / ·)

variable {op : Operator} {a b : Scalar}

theorem isFinite_onNumbers {l r : Float} {v : Scalar} (h : op.onNumbers l r = .ok v) :
    v.isFinite = true := by
  cases op <;> simp only [onNumbers] at h
  case divide =>
    split at h
    · cases h
    · exact isFinite_of_finiteOutcome h
  all_goals exact isFinite_of_finiteOutcome h

theorem isFinite_apply {v : Scalar} (h : op.apply a b = .ok v) : v.isFinite = true := by
  unfold apply at h
  split at h
  · cases h
    rfl
  · obtain ⟨l, -, hl⟩ := bind_eq_ok_iff.mp h
    obtain ⟨r, -, hr⟩ := bind_eq_ok_iff.mp hl
    exact isFinite_onNumbers hr

/-- Where the operands are numbers and the result is not finite, it is a division by zero. -/
theorem apply_eq_divideByZero {x y : Float} (ha : operandNumber op.sign a = .ok x)
    (hb : operandNumber op.sign b = .ok y) (h : (op.arithmetic x y).isFinite = false) :
    op.apply a b = .error .divideByZero := by
  -- An operand that is a number is no text, so nothing is joined.
  have hnoText : ∀ {value : Scalar} {z : Float}, operandNumber op.sign value = .ok z →
      isText value = false := by
    intro value z hz
    cases value with
    | text => cases hz
    | _ => rfl
  -- So the operator is the one of numbers.
  have hnumbers : op.apply a b = op.onNumbers x y := by
    rw [apply, hnoText ha, hnoText hb, ha, hb]
    simp only [Bool.or_self, Bool.and_false]
    rfl
  -- A result that is not finite is refused.
  have hrefused : finiteOutcome (.number (op.arithmetic x y)) = .error .divideByZero := by
    rw [finiteOutcome_eq, Scalar.isFinite, h]
    rfl
  rw [hnumbers]
  cases op with
  | divide =>
    -- A zero divisor is refused beforehand, with the same error.
    simp only [onNumbers]
    split
    · rfl
    · exact hrefused
  | _ => exact hrefused

end Operator

namespace Registry

variable {r : Registry} {function : String} {args : List Argument} {ctx : Context}

theorem isFinite_call {v : Scalar} (h : r.call function args ctx = .ok v) :
    v.isFinite = true := by
  unfold call at h
  split at h
  · cases h
  · split at h
    · obtain ⟨value, -, hvalue⟩ := bind_eq_ok_iff.mp h
      exact isFinite_of_finiteOutcome hvalue
    · cases h

/-- Where a function gives a number that is not finite, the call is a division by zero. -/
theorem call_eq_divideByZero {f : FunctionDef} {x : Float} (hf : r.get? function = some f)
    (harity : f.arity.accepts args.length = true) (hbody : f.runBody args ctx = .ok (.number x))
    (h : x.isFinite = false) : r.call function args ctx = .error .divideByZero := by
  have hrefused : finiteOutcome (.number x) = .error .divideByZero := by
    rw [finiteOutcome_eq, Scalar.isFinite, h]
    rfl
  rw [call, hf]
  simp only [harity, if_true, hbody]
  exact hrefused

end Registry

/-! ## §3 Expressions -/

namespace Expr

/-- Is the expression a number literal that is not finite, with minus signs in front at most? -/
def isOverflow : Expr → Bool
  | literal value => !value.isFinite
  | negate e => e.isOverflow
  | _ => false

variable {r : Registry} {ctx : Context}

/-- Such a literal is let out as it is. -/
theorem evaluate_of_isOverflow {e : Expr} (h : e.isOverflow = true) :
    ∃ x, e.evaluate r ctx = .ok (.number x) ∧ x.isFinite = false := by
  fun_induction isOverflow e with
  | case1 value =>
    cases value with
    | number x => exact ⟨x, by rw [evaluate], by simpa [Scalar.isFinite] using h⟩
    | _ => cases h
  | case2 e ih =>
    obtain ⟨x, hx, hinfinite⟩ := ih h
    refine ⟨-x, ?_, by rw [isFinite_neg, hinfinite]⟩
    rw [evaluate, hx]
    rfl
  | case3 => cases h

/-- Over finite data everything else is finite. -/
theorem isFinite_evaluate (hctx : ctx.IsFinite) {e : Expr} {v : Scalar}
    (h : e.evaluate r ctx = .ok v) (hliteral : e.isOverflow = false) : v.isFinite = true := by
  -- The tree is followed down to what is not a negation.
  fun_induction isOverflow e generalizing v with
  | case1 value =>
    rw [evaluate] at h
    cases h
    simpa using hliteral
  | case2 e ih =>
    rw [evaluate] at h
    obtain ⟨value, hvalue, hnegated⟩ := bind_eq_ok_iff.mp h
    obtain ⟨x, hx, hv⟩ := bind_eq_ok_iff.mp hnegated
    obtain rfl := pure_eq_ok_iff.mp hv
    show (-x).isFinite = true
    rw [isFinite_neg]
    exact isFinite_operandNumber (ih hvalue hliteral) hx
  | case3 e hne hnegate =>
    -- What is left are the forms that look at their result, and the names of finite data.
    cases e with
    | literal value => exact absurd rfl (hne value)
    | negate e => exact absurd rfl (hnegate e)
    | reference name =>
      -- A name has a value of the data, which is finite.
      rw [evaluate] at h
      exact isFinite_resolve hctx h
    | wildcard =>
      rw [evaluate] at h
      cases h
    | binary op left right =>
      -- An operator looks at its result before it gives it back.
      rw [evaluate] at h
      obtain ⟨a, -, ha⟩ := bind_eq_ok_iff.mp h
      obtain ⟨b, -, hb⟩ := bind_eq_ok_iff.mp ha
      exact Operator.isFinite_apply hb
    | call function args =>
      rw [evaluate] at h
      exact Registry.isFinite_call h

end Expr

/-- **Only literals are not finite.** Over finite data, and whatever functions are registered, a
formula gives a number that is not finite just when it is a number literal with too many digits,
with minus signs in front at most. Any other such result is reported as a division by zero: that of
an operator, and that of a function, be it given, selected or folded over rows. -/
theorem evaluate_infinite_iff (r : Registry) (formula : String) {ctx : Context}
    (hctx : ctx.IsFinite) :
    ((∃ x, r.evaluate formula ctx = .ok (.number x) ∧ x.isFinite = false) ↔
      ∃ e, Expr.parse formula = .ok e ∧ e.isOverflow = true) ∧
    (∀ (op : Operator) (a b : Scalar) (x y : Float), operandNumber op.sign a = .ok x →
      operandNumber op.sign b = .ok y → (op.arithmetic x y).isFinite = false →
        op.apply a b = .error .divideByZero) ∧
    ∀ (function : String) (f : FunctionDef) (args : List Argument) (x : Float),
      r.get? function = some f → f.arity.accepts args.length = true →
        f.runBody args ctx = .ok (.number x) → x.isFinite = false →
          r.call function args ctx = .error .divideByZero := by
  refine ⟨⟨?_, ?_⟩, fun op a b x y => Operator.apply_eq_divideByZero,
    fun function f args x => Registry.call_eq_divideByZero⟩
  · -- If no literal of the formula is out of range, its value is not either.
    rintro ⟨x, hx, hinfinite⟩
    obtain ⟨e, hparse, he⟩ := bind_eq_ok_iff.mp hx
    refine ⟨e, hparse, ?_⟩
    by_contra hliteral
    have hfinite : x.isFinite = true :=
      Expr.isFinite_evaluate hctx he (Bool.eq_false_iff.mpr hliteral)
    rw [hinfinite] at hfinite
    cases hfinite
  · -- The other way round, such a literal is all there is.
    rintro ⟨e, hparse, hliteral⟩
    obtain ⟨x, hx, hinfinite⟩ := e.evaluate_of_isOverflow hliteral
    exact ⟨x, bind_eq_ok_iff.mpr ⟨e, hparse, hx⟩, hinfinite⟩

private def endOfYear : DateTime := ⟨⟨2018, 12, 31, by decide, by decide⟩, .midnight⟩

private def priced (price : Float) : Record := .ofList [("price", .number price)]

/-- A small price, and two rows whose prices have no sum. -/
private def pricesContext : Context :=
  { Context.ofMaster (priced 2.0) endOfYear with allRows := [priced 1e308, priced 1e308] }

private theorem isFinite_pricesContext : pricesContext.IsFinite where
  master := by
    intro field hfield
    obtain rfl : field = ("price", .number 2.0) := List.mem_singleton.mp hfield
    show (2.0 : Float).isFinite = true
    decide +kernel
  detailRow := nofun
  rowIndex := by decide
  pageNumber := by decide
  totalPages := by decide
  allRows := by decide
  pageRows := by decide

/-- A product of finite numbers that is finite, one that is not, and a sum that is not. -/
theorem evaluate_infinite_iff_prices :
    let price : Argument := ⟨false, resolve "price"⟩
    pricesContext.IsFinite ∧
    (¬ ∃ x, Registry.builtin.evaluate "(\x7bprice\x7d) * 02.50" pricesContext = .ok (.number x) ∧
      x.isFinite = false) ∧
    Operator.multiply.apply (.number 1e308) (.number 10.0) = .error .divideByZero ∧
    Registry.builtin.call "SUM" [price] pricesContext = .error .divideByZero := by
  intro price
  obtain ⟨hliteral, hoperator, hcall⟩ := evaluate_infinite_iff .builtin "(\x7bprice\x7d) * 02.50"
    isFinite_pricesContext
  refine ⟨isFinite_pricesContext, ?_, ?_, ?_⟩
  · -- The price of the formula is no literal out of range.
    rw [hliteral, parse_doubled]
    rintro ⟨e, ⟨⟩, hoverflow⟩
    cases hoverflow
  · -- The product and the sum are out of range, and refused as the theorem says.
    exact hoperator .multiply (.number 1e308) (.number 10.0) 1e308 10.0 rfl rfl (by decide +kernel)
  · exact hcall "SUM" (Aggregate.define "SUM" .all Aggregate.sum _) [price]
      (Aggregate.sumOf [1e308, 1e308]) rfl rfl rfl (by decide +kernel)

/-- A literal of 401 nines is evaluated to an infinite number, although all data are finite. -/
theorem evaluate_nines_infinite :
    pricesContext.IsFinite ∧
    Registry.builtin.evaluate (String.ofList (List.replicate 401 '9')) pricesContext =
      .ok (.number (1.0 / 0.0)) ∧
    (1.0 / 0.0 : Float).isFinite = false := by
  refine ⟨isFinite_pricesContext, ?_, by decide +kernel⟩
  exact bind_eq_ok_iff.mpr ⟨_, parse_nines, by rw [Expr.number, Expr.evaluate]⟩

end Formula

end BandedReport
