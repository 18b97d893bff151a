import BandedReport.Proofs.Formula.Noninterference
import BandedReport.Proofs.Formula.Safety

/-!
# What an aggregate folds

A call of an aggregate evaluates its argument on every row and reduces the values. Two things are
said here about the values: in which context they are computed, and what stands in for a value that
the data of a row do not allow.

* `evaluate_aggregate` is the fold itself, `evaluate_aggregate_orNull` with what a row gives;
* `aggregate_keepsPosition`: the row changes from value to value, the position does not, so that
  the names of the position stand for the row outside, not for the row that is folded;
* `aggregate_ofRows`: a row without a value counts as null, unless a function has refused an
  argument there; then the whole aggregate is refused.
-/

namespace BandedReport.Formula

variable {r : Registry} {function : String} {f : FunctionDef} {scope : RowScope}
  {reduce : List Scalar → Scalar}

/-! ## §1 The fold -/

/-- What an aggregate makes of the outcome on a row: null, where the data allow no value. -/
def orNull : Outcome → Outcome
  | .error (.missingField _) | .error (.typeMismatch _) | .error .divideByZero => .ok .null
  | outcome => outcome

/-- The outcome of an argument on a row: a star counts every row. -/
def Expr.outcomeIn (r : Registry) (ctx : Context) (e : Expr) : Outcome :=
  if e.isWildcard then .ok (.number 1.0) else e.evaluate r ctx

theorem Expr.onRow_toArgument (e : Expr) (ctx : Context) (row : Record) :
    (e.toArgument r).onRow ctx row = orNull (e.outcomeIn r (ctx.forRow row)) := by
  rw [Argument.onRow, outcomeIn]
  cases he : e.isWildcard with
  | true => simp [toArgument, he, orNull]
  | false =>
    simp only [toArgument, he, Bool.false_eq_true, if_false]
    unfold orNull
    split <;> simp_all

/-- A call of an aggregate reduces what its argument is on the rows. -/
theorem evaluate_aggregate (hget : r.get? function = some f)
    (hbody : f.body = .aggregate scope reduce) (harity : f.arity.accepts 1 = true) (e : Expr)
    (ctx : Context) :
    (Expr.call function [e]).evaluate r ctx =
      (ctx.rowsOf scope).mapM ((e.toArgument r).onRow ctx) >>=
        fun values => finiteOutcome (reduce values) := by
  rw [Expr.evaluate, Expr.arguments_eq_map, Registry.call, hget]
  simp only [List.map_cons, List.map_nil, List.length_singleton, harity, if_true]
  rw [FunctionDef.runBody, hbody]
  simp only [List.head?_cons, Option.getD_some, bind_assoc, pure_bind]

theorem evaluate_aggregate_orNull (hget : r.get? function = some f)
    (hbody : f.body = .aggregate scope reduce) (harity : f.arity.accepts 1 = true) (e : Expr)
    (ctx : Context) :
    (Expr.call function [e]).evaluate r ctx =
      (ctx.rowsOf scope).mapM (fun row => orNull (e.outcomeIn r (ctx.forRow row))) >>=
        fun values => finiteOutcome (reduce values) := by
  rw [evaluate_aggregate hget hbody harity, mapM_congr fun row _ => e.onRow_toArgument ctx row]

/-! ## §2 The position -/

/-- The context on a row, at a position in the whole data. -/
def Context.atRow (ctx : Context) (row : Record) (index : Nat) : Context :=
  { ctx with detailRow := some row, rowIndex := index }

/-- The system variables that tell the position of the current row. -/
def positionVariables : List String := ["rowIndex", "rowNumber"]

theorem resolve_withRowIndex {name : String} (hname : name ∉ positionVariables) (ctx : Context)
    (index : Nat) : resolve name { ctx with rowIndex := index } = resolve name ctx := by
  have hsystem : systemValue? name { ctx with rowIndex := index } = systemValue? name ctx := by
    unfold systemValue?
    split
    case h_6 | h_7 => exact absurd hname (by decide)
    all_goals rfl
  rw [resolve, resolve, hsystem]
  rfl

/-- An expression that does not name the position is the same at every position. -/
theorem Expr.evaluate_withRowIndex (hr : ∀ name f, r.get? name = some f → f.ReadsClockOnly)
    {e : Expr} (he : ∀ name ∈ e.references, name ∉ positionVariables) (ctx : Context)
    (index : Nat) : e.evaluate r { ctx with rowIndex := index } = e.evaluate r ctx := by
  refine evaluate_eq_of_related (R := fun ctx₁ ctx₂ => ctx₁ = { ctx₂ with rowIndex := index })
    hr ?_ ?_ ?_ ?_ rfl
  · rintro _ ctx₂ rfl row
    rfl
  · rintro _ ctx₂ rfl
    rfl
  · rintro name hname _ ctx₂ rfl
    exact resolve_withRowIndex (he name hname) ctx₂ index
  · rintro _ _ scope _ _ ctx₂ rfl
    cases scope <;> rfl

theorem Expr.outcomeIn_atRow (hr : ∀ name f, r.get? name = some f → f.ReadsClockOnly)
    {e : Expr} (he : ∀ name ∈ e.references, name ∉ positionVariables) (ctx : Context)
    (row : Record) (index : Nat) :
    e.outcomeIn r (ctx.atRow row index) = e.outcomeIn r (ctx.forRow row) := by
  rw [outcomeIn, outcomeIn]
  exact congrArg (ite _ _) (evaluate_withRowIndex hr he (ctx.forRow row) index)

/-- Rows are folded as they are, whatever number they have. -/
private theorem mapM_zipIdx {α β ε : Type} (l : List α) (g : α → Except ε β) :
    (l.zipIdx.mapM fun row => g row.1) = l.mapM g :=
  calc (l.zipIdx.mapM fun row => g row.1) = (l.zipIdx.map Prod.fst).mapM g := List.mapM_map.symm
    _ = l.mapM g := by rw [List.zipIdx_map_fst]

/-- **An aggregate changes the row, not the position.** What a call of an aggregate over all rows
folds for a row is its argument on that row, at the position of the context in which the call
stands: there the names of the position stand for what they stand for outside the call. For an
argument that does not name the position, and functions that read nothing of a context but the
clock, this is the argument in the context whose row is the folded one and whose position is the
number of that row. -/
theorem aggregate_keepsPosition (hget : r.get? function = some f)
    (hbody : f.body = .aggregate .all reduce) (harity : f.arity.accepts 1 = true) (e : Expr)
    (ctx : Context) :
    ((Expr.call function [e]).evaluate r ctx =
      (ctx.allRows.zipIdx.mapM fun (row, _) =>
        orNull (e.outcomeIn r (ctx.atRow row ctx.rowIndex))) >>=
          fun values => finiteOutcome (reduce values)) ∧
    (∀ row, resolve "rowIndex" (ctx.forRow row) = .ok (.ofNat ctx.rowIndex) ∧
      resolve "rowNumber" (ctx.forRow row) = .ok (.ofNat (ctx.rowIndex + 1))) ∧
    ((∀ name f, r.get? name = some f → f.ReadsClockOnly) →
      (∀ name ∈ e.references, name ∉ positionVariables) →
        (Expr.call function [e]).evaluate r ctx =
          (ctx.allRows.zipIdx.mapM fun (row, index) =>
            orNull (e.outcomeIn r (ctx.atRow row index))) >>=
              fun values => finiteOutcome (reduce values)) := by
  -- All rows are folded, with the position of the outer row.
  have hfold := evaluate_aggregate_orNull hget hbody harity e ctx
  rw [Context.rowsOf, ← mapM_zipIdx] at hfold
  refine ⟨hfold, fun row => ⟨rfl, rfl⟩, fun hr he => ?_⟩
  -- An argument that does not ask for the position has the same outcome at any other.
  simp only [Expr.outcomeIn_atRow hr he, hfold]

private def epiphany : DateTime := ⟨⟨2013, 1, 6, by decide, by decide⟩, .midnight⟩

/-- In front of the rows: three prices, one of them missing. -/
private def threePrices : Context :=
  { Context.ofMaster .empty epiphany with
    allRows := [.ofList [("price", .number 3.0)], .empty, .ofList [("price", .number 4.5)]] }

/-- A sum of prices does not name the position. -/
theorem aggregate_keepsPosition_prices :
    (∀ name ∈ (Expr.reference "price").references, name ∉ positionVariables) ∧
    (Expr.call "SUM" [.reference "price"]).evaluate .builtin threePrices =
      (threePrices.allRows.zipIdx.mapM fun (row, index) =>
        orNull ((Expr.reference "price").outcomeIn .builtin (threePrices.atRow row index))) >>=
          (fun values => finiteOutcome (Aggregate.sum values)) ∧
    (Expr.call "SUM" [.reference "price"]).evaluate .builtin threePrices = .ok (.number 7.5) := by
  have hprice : ∀ name ∈ (Expr.reference "price").references, name ∉ positionVariables := by
    decide +kernel
  refine ⟨hprice, ?_, by rfl⟩
  exact (aggregate_keepsPosition rfl rfl rfl (.reference "price") threePrices).2.2
    (fun _ _ => builtin_readsClockOnly) hprice

/-- Folded over three rows, the number of the row is the number of the context each time; the
numbers of the folded rows would add up to something else. -/
theorem aggregate_rowNumber_kept :
    (Expr.call "SUM" [.reference "rowNumber"]).evaluate .builtin threePrices = .ok (.number 3.0) ∧
    ((threePrices.allRows.zipIdx.mapM fun (row, index) =>
      orNull ((Expr.reference "rowNumber").outcomeIn .builtin (threePrices.atRow row index))) >>=
        fun values => finiteOutcome (Aggregate.sum values)) = .ok (.number 6.0) ∧
    (3.0 : Float) ≠ 6.0 := by
  refine ⟨by rfl, by rfl, by decide +kernel⟩

/-! ## §3 Rows without a value -/

/-- The value of an outcome, null where there is none. -/
def valueOrNull : Outcome → Scalar
  | .ok value => value
  | .error _ => .null

/-- The error with which a function refused an argument, if that is the outcome. -/
def refusal? : Outcome → Option Error
  | .error (.invalidArgument function fault) => some (.invalidArgument function fault)
  | _ => none

/-- An error of the data is null to an aggregate, unless it is the refusal of an argument. -/
theorem orNull_eq {missing : String → Prop} {outcome : Outcome}
    (h : FailsOnly (Error.IsData missing) outcome) :
    orNull outcome = (refusal? outcome).elim (.ok (valueOrNull outcome)) .error := by
  cases outcome with
  | ok value => rfl
  | error e =>
    have he : e.IsData missing := h e rfl
    cases e with
    | typeMismatch | divideByZero | missingField | invalidArgument => rfl
    | _ => exact absurd he id

/-- The argument of a checked call of an aggregate fails on account of the data only. -/
theorem outcomeIn_failsOnly {e : Expr} (hcalls : (Expr.call function [e]).CallsAccepted .builtin)
    (hstars : (Expr.call function [e]).StarsPlaced) (ctx : Context) :
    FailsOnly (Error.IsData fun _ => True) (e.outcomeIn .builtin ctx) := by
  have hcallsArg : e.CallsAccepted .builtin :=
    (Expr.callsAccepted_call.mp hcalls).2 e (List.mem_singleton.mpr rfl)
  rw [Expr.outcomeIn]
  -- The argument is a star, which is not evaluated, or an expression like any other.
  rcases Expr.starsPlaced_call.mp hstars with ⟨hstar, -⟩ | hargs
  · obtain rfl := List.singleton_inj.mp hstar
    exact .ok _
  · have hstarsArg : e.StarsPlaced := hargs e (List.mem_singleton.mpr rfl)
    -- Any field may be missing.
    have hnames : ∀ name ∈ e.references, SafeName (Error.IsData fun _ => True) ctx.master name :=
      fun _ _ => .inr (.inr trivial)
    exact .ite (.ok _) (Expr.evaluate_failsOnly (fun _ => Error.IsValueError.isData)
      (fun _ _ => builtin_raises) hcallsArg hstarsArg hnames rfl)

/-- **A row without a value counts as null, unless it is refused.** In a formula that passes the
check, a call of an aggregate folds the values of its argument on the rows, with null where a field
is missing, an operand is of the wrong type or a result is not finite; what is reduced may only not
be finite in its turn. But where a function refuses an argument on a row, because it is no date or
out of its range, the aggregate fails with the first such error. -/
theorem aggregate_ofRows {fields : List DataField} {formula : String} {tree e : Expr}
    (hcheck : Registry.builtin.check fields formula = .ok tree)
    (hcall : (Expr.call function [e]).IsPart tree)
    (hget : Registry.builtin.get? function = some f) (hbody : f.body = .aggregate scope reduce)
    (ctx : Context) :
    Registry.builtin.evaluate formula ctx = tree.evaluate .builtin ctx ∧
    let outcomes := (ctx.rowsOf scope).map fun row => e.outcomeIn .builtin (ctx.forRow row)
    (Expr.call function [e]).evaluate .builtin ctx =
      match outcomes.findSome? refusal? with
      | none => finiteOutcome (reduce (outcomes.map valueOrNull))
      | some refusal => .error refusal := by
  -- The formula was accepted, so each of its calls has a number of arguments its function takes.
  obtain ⟨hparse, -, hcalls, hstars⟩ := check_eq_ok_iff.mp hcheck
  have hcallsPart := hcall.callsAccepted hcalls
  have hstarsPart := hcall.starsPlaced_call hstars
  have harity : f.arity.accepts 1 = true := by
    obtain ⟨⟨f', hget', haccepts⟩, -⟩ := Expr.callsAccepted_call.mp hcallsPart
    rwa [← Option.some.inj (hget.symm.trans hget')] at haccepts
  -- On every row the argument is refused, or it has a value or null.
  have hfold := mapM_eq_findSome? fun row (_ : row ∈ ctx.rowsOf scope) =>
    orNull_eq (outcomeIn_failsOnly hcallsPart hstarsPart (ctx.forRow row))
  constructor
  · -- Evaluating the text is evaluating its tree.
    rw [Registry.evaluate, hparse]
    rfl
  · dsimp only
    rw [evaluate_aggregate_orNull hget hbody harity, hfold, List.findSome?_map, List.map_map]
    simp only [Function.comp_def]
    cases (ctx.rowsOf scope).findSome? _ <;> rfl

/-- The years in which rows fall due, added up. -/
private def dueYears : Expr := .call "SUM" [.call "YEAR" [.reference "due"]]

private theorem dueYears_check :
    Registry.builtin.check [.ofName .detail "due"] "SUM(YEAR(\x7bdue\x7d))" = .ok dueYears := by
  -- The words of the text, from the inside out.
  have hsum : isIdentifier "SUM".toList = true := by decide +kernel
  have hyear : isIdentifier "YEAR".toList = true := by decide +kernel
  have hdue : Written ('\x7b' :: ("due".toList ++ ['\x7d']))
      (.factor (.reference (String.ofList "due".toList))) :=
    Written.reference (by decide) (by simp [isBrace]) (by decide +kernel)
  have hcall := Written.call hyear hdue.term.expression.argument.lastArgument
  have hparse : Expr.parse "SUM(YEAR(\x7bdue\x7d))" = .ok dueYears :=
    (Written.call hsum hcall.term.expression.argument.lastArgument).term.expression.parse_eq
  -- The tree is parsed, its only variable is known, and its calls and stars are in order.
  refine check_eq_ok_iff.mpr ⟨hparse, ?_, ?_, ?_⟩
  · decide +kernel
  · exact Expr.checkCalls_eq_ok_iff.mp (by rfl)
  · refine .call _ fun a ha => ?_
    obtain rfl := List.mem_singleton.mp ha
    refine .call _ fun a ha => ?_
    obtain rfl := List.mem_singleton.mp ha
    exact .reference _

/-- Three rows: one is due in 2024, one has no date at all, and one falls due soon. -/
private def dueRows : List Record :=
  [.ofList [("due", .text "2024-03-01")], .empty, .ofList [("due", .text "soon")]]

/-- A missing date is null in the sum. -/
theorem aggregate_ofRows_dueYears :
    Registry.builtin.check [.ofName .detail "due"] "SUM(YEAR(\x7bdue\x7d))" = .ok dueYears ∧
    Registry.builtin.evaluate "SUM(YEAR(\x7bdue\x7d))"
      { Context.ofMaster .empty epiphany with allRows := dueRows.take 2 } =
        finiteOutcome (Aggregate.sum [.number 2024.0, .null]) := by
  refine ⟨dueYears_check, ?_⟩
  obtain ⟨hformula, hcall⟩ := aggregate_ofRows dueYears_check .self rfl rfl
    { Context.ofMaster .empty epiphany with allRows := dueRows.take 2 }
  rw [hformula]
  exact hcall

/-- One text that is no date, and the sum over all rows is refused, although the years of the
others, with null in its place, have a sum. -/
theorem aggregate_dueYears_refused :
    Registry.builtin.check [.ofName .detail "due"] "SUM(YEAR(\x7bdue\x7d))" = .ok dueYears ∧
    Registry.builtin.evaluate "SUM(YEAR(\x7bdue\x7d))"
      { Context.ofMaster .empty epiphany with allRows := dueRows } =
        .error (.invalidArgument "YEAR" (.notADate (.text "soon"))) ∧
    finiteOutcome (Aggregate.sum [.number 2024.0, .null, .null]) = .ok (.number 2024.0) := by
  refine ⟨dueYears_check, ?_, by rfl⟩
  have hparse := (check_eq_ok_iff.mp dueYears_check).1
  rw [Registry.evaluate, hparse]
  rfl

end BandedReport.Formula
