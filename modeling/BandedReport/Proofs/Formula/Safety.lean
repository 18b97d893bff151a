import BandedReport.Proofs.Formula.FunctionErrors
import BandedReport.Proofs.Formula.Validity
import BandedReport.Proofs.Formula.Writing

/-!
# Valid formulas do not fail for reasons of form

What validation has looked at cannot go wrong any more when the formula is evaluated: no error says
that the text is malformed, that a name is unknown or that a number of arguments is wrong. What is
left are errors that the data give rise to, and those that functions of the host raise themselves.

The invariant that evaluation keeps is a kind of error. It is carried from the arguments of a call
to the call, through every body a function can have, and from a context to the contexts of the
rows, which have the same master record.
-/

namespace BandedReport.Formula

variable {r : Registry} {kind : Error → Prop} {master : Record}

/-! ## §1 Names and operators -/

theorem systemValue?_isSome {name : String} (h : isSystemVariable name = true) (ctx : Context) :
    (systemValue? name ctx).isSome := by
  simp only [isSystemVariable, systemVariables, List.contains_iff_mem, List.mem_cons,
    List.not_mem_nil, or_false] at h
  rcases h with rfl | rfl | rfl | rfl | rfl | rfl | rfl | rfl | rfl <;> rfl

/-- A name is safe to read over a master record: it is a system variable, a field of the record,
or one whose absence is an error of the kind. -/
def SafeName (kind : Error → Prop) (master : Record) (name : String) : Prop :=
  isSystemVariable name = true ∨ (master.get? name).isSome ∨ kind (.missingField name)

theorem resolve_failsOnly {name : String} {ctx : Context}
    (h : SafeName kind ctx.master name) : FailsOnly kind (resolve name ctx) := by
  rw [resolve]
  split
  · exact .ok _
  · rename_i hnone
    -- A name without a value is no system variable, and neither record has it.
    obtain ⟨hsystem, hfield⟩ := Option.or_eq_none_iff.mp hnone
    have hmaster : ctx.master.get? name = none := (Option.or_eq_none_iff.mp hfield).2
    rcases h with h | h | h
    · have hsome := systemValue?_isSome h ctx
      rw [hsystem] at hsome
      cases hsome
    · rw [hmaster] at h
      cases h
    · exact .error h

theorem operandNumber_failsOnly {operator : Char} {value : Scalar} :
    FailsOnly Error.IsValueError (operandNumber operator value) := by
  cases value with
  | number | boolean | null => exact .ok _
  | text | date => exact .error trivial

theorem finiteOutcome_failsOnly {value : Scalar} :
    FailsOnly Error.IsValueError (finiteOutcome value) := by
  cases value with
  | number x => exact .ite (.ok _) (.error trivial)
  | text | date | boolean | null => exact .ok _

theorem Operator.onNumbers_failsOnly {op : Operator} {l r : Float} :
    FailsOnly Error.IsValueError (op.onNumbers l r) := by
  cases op with
  | add | subtract | multiply =>
    rw [onNumbers]
    exact finiteOutcome_failsOnly
  | divide => exact .ite (.error trivial) finiteOutcome_failsOnly

theorem Operator.apply_failsOnly {op : Operator} {left right : Scalar} :
    FailsOnly Error.IsValueError (op.apply left right) :=
  .ite (.ok _) (.bind operandNumber_failsOnly fun _ =>
    .bind operandNumber_failsOnly fun _ => onNumbers_failsOnly)

/-! ## §2 Calls -/

/-- The argument is no star, and its value over a master record fails with errors of the kind
only. -/
def Argument.Safe (kind : Error → Prop) (master : Record) (arg : Argument) : Prop :=
  arg.isWildcard = false ∧ ∀ ctx : Context, ctx.master = master → FailsOnly kind (arg.value ctx)

theorem Argument.Safe.onRow_failsOnly {arg : Argument} {ctx : Context}
    (h : arg.Safe kind ctx.master) (row : Record) : FailsOnly kind (arg.onRow ctx row) := by
  -- On a row the master record is the one of the context.
  have hvalue : FailsOnly kind (arg.value (ctx.forRow row)) := h.2 _ rfl
  rw [Argument.onRow, h.1, if_neg Bool.false_ne_true]
  split
  · exact .ok _
  · exact .ok _
  · exact .ok _
  · exact .ok _
  · rename_i e _ _ _ he
    exact .error (hvalue e he)

/-- An aggregate counts a star on every row. -/
theorem Argument.onRow_wildcard {arg : Argument} (h : arg.isWildcard = true) (ctx : Context)
    (row : Record) : arg.onRow ctx row = .ok (.number 1.0) := by
  rw [Argument.onRow, h, if_pos rfl]

variable {f : FunctionDef} {args : List Argument} {ctx : Context}

theorem FunctionDef.Raises.runBody_failsOnly (hf : f.Raises kind)
    (haccepts : f.arity.accepts args.length = true) (hargs : ∀ a ∈ args, a.Safe kind ctx.master) :
    FailsOnly kind (f.runBody args ctx) := by
  have hvalues : ∀ a ∈ args, FailsOnly kind (a.value ctx) := fun a ha => (hargs a ha).2 ctx rfl
  rw [Raises] at hf
  rw [runBody]
  cases hbody : f.body with
  | eager run =>
    -- Stars are taken care of before the call, so only values and the function itself can fail.
    rw [hbody] at hf
    have hnone : args.findIdx? (·.isWildcard) = none :=
      List.findIdx?_eq_none_iff.mpr fun a ha => (hargs a ha).1
    simp only [hnone]
    exact .bind (.mapM hvalues) fun values => hf.2 values ctx
  | selective select =>
    rw [hbody] at hf
    intro e he
    -- An error that is passed on is the error of an argument.
    rcases hf.2 _ e he with hmem | hkind
    · obtain ⟨a, ha, hvalue⟩ := List.mem_map.mp hmem
      exact hvalues a ha e hvalue
    · exact hkind
  | aggregate scope reduce =>
    rw [hbody] at hf
    -- There is an argument, since the function does not accept a call without any.
    have hlength : f.arity.min ≤ args.length := by
      simp only [Arity.accepts, Bool.and_eq_true, decide_eq_true_eq] at haccepts
      exact haccepts.1
    cases args with
    | nil => exact absurd hlength (Nat.not_le.mpr hf)
    | cons a rest =>
      have ha : a.Safe kind ctx.master := hargs a List.mem_cons_self
      exact .bind (.mapM fun row _ => ha.onRow_failsOnly row) fun _ => .pure _

/-- Only an aggregate is called with a star, and it does not ask for its value. -/
theorem FunctionDef.Raises.runBody_wildcard (hf : f.Raises kind)
    (hname : f.name ∈ wildcardFunctions) {star : Argument} (hstar : star.isWildcard = true) :
    FailsOnly kind (f.runBody [star] ctx) := by
  rw [Raises] at hf
  rw [runBody]
  cases hbody : f.body with
  | eager run =>
    -- Only an aggregate may be called with a star.
    rw [hbody] at hf
    exact absurd hname hf.1
  | selective select =>
    rw [hbody] at hf
    exact absurd hname hf.1
  | aggregate scope reduce =>
    -- A star has a value on every row, so there is nothing that could fail.
    refine .bind (.mapM fun row _ => ?_) fun _ => .pure _
    rw [List.head?_cons, Option.getD_some, Argument.onRow_wildcard hstar]
    exact .ok _

/-- A call that is accepted fails only as the body of its function does. -/
theorem call_failsOnly {function : String} (hvalue : ∀ e, Error.IsValueError e → kind e)
    (hget : r.get? function = some f) (haccepts : f.arity.accepts args.length = true)
    (hbody : FailsOnly kind (f.runBody args ctx)) : FailsOnly kind (r.call function args ctx) := by
  rw [Registry.call, hget]
  simp only [haccepts, if_true]
  exact .bind hbody fun _ => finiteOutcome_failsOnly.mono hvalue

/-! ## §3 Expressions -/

namespace Expr

theorem isWildcard_of_starsPlaced {e : Expr} (h : e.StarsPlaced) : e.isWildcard = false := by
  cases h <;> rfl

/-- **Evaluation keeps to the kind.** An expression with accepted calls, stars in their places and
safe names fails with errors of the kind only, in every context over the master record. -/
theorem evaluate_failsOnly (hvalue : ∀ e, Error.IsValueError e → kind e)
    (hr : ∀ name f, r.get? name = some f → f.Raises kind) {e : Expr}
    (hcalls : e.CallsAccepted r) (hstars : e.StarsPlaced)
    (hnames : ∀ name ∈ e.references, SafeName kind master name) {ctx : Context}
    (hctx : ctx.master = master) : FailsOnly kind (e.evaluate r ctx) := by
  induction e generalizing ctx with
  | literal value => exact .ok _
  | reference name =>
    subst hctx
    exact resolve_failsOnly (hnames name (mem_references_reference.mpr rfl))
  | wildcard => exact absurd hstars not_starsPlaced_wildcard
  | negate e ih =>
    rw [callsAccepted_negate] at hcalls
    rw [starsPlaced_negate] at hstars
    exact .bind (ih hcalls hstars hnames hctx) fun _ =>
      .bind (operandNumber_failsOnly.mono hvalue) fun _ => .pure _
  | binary op left right ihl ihr =>
    obtain ⟨hcallsl, hcallsr⟩ := callsAccepted_binary.mp hcalls
    obtain ⟨hstarsl, hstarsr⟩ := starsPlaced_binary.mp hstars
    -- An operand fails as the induction says.
    have hleft : FailsOnly kind (left.evaluate r ctx) :=
      ihl hcallsl hstarsl (fun n hn => hnames n (mem_references_binary.mpr (.inl hn))) hctx
    have hright : FailsOnly kind (right.evaluate r ctx) :=
      ihr hcallsr hstarsr (fun n hn => hnames n (mem_references_binary.mpr (.inr hn))) hctx
    exact .bind hleft fun _ => .bind hright fun _ => Operator.apply_failsOnly.mono hvalue
  | call function args ih =>
    obtain ⟨⟨f, hget, haccepts⟩, hcallsargs⟩ := callsAccepted_call.mp hcalls
    have hf := hr function f hget
    rw [evaluate, arguments_eq_map]
    refine call_failsOnly hvalue hget (by rwa [List.length_map]) ?_
    -- Either the only argument is a star, which the function counts, or no argument is one.
    rcases starsPlaced_call.mp hstars with ⟨rfl, hcount⟩ | hstarsargs
    · have hname : f.name ∈ wildcardFunctions := Registry.name_of_get? hget ▸ hcount
      exact hf.runBody_wildcard hname rfl
    · refine hf.runBody_failsOnly (by rwa [List.length_map]) fun a ha => ?_
      -- The arguments are safe in every context with the same master record.
      obtain ⟨e, he, rfl⟩ := List.mem_map.mp ha
      refine ⟨isWildcard_of_starsPlaced (hstarsargs e he), fun ctx' hctx' => ?_⟩
      exact ih e he (hcallsargs e he) (hstarsargs e he)
        (fun n hn => hnames n (mem_references_call.mpr ⟨e, he, hn⟩)) (hctx'.trans hctx)

end Expr

/-! ## §4 Valid formulas -/

/-- The error is one that a function of the host raised on some arguments. -/
def RaisedByHost (customs : List FunctionDef) (e : Error) : Prop :=
  ∃ f ∈ customs, ∃ run, f.body = .eager run ∧ ∃ args ctx, run args ctx = .error e

/-- The functions take the values of their arguments, and none has a name that is used with a
star. -/
def AreHostFunctions (customs : List FunctionDef) : Prop :=
  ∀ f ∈ customs, (∃ run, f.body = .eager run) ∧ f.name ∉ wildcardFunctions

/-- The built-in functions together with functions of the host. -/
def Registry.withHost (customs : List FunctionDef) : Registry :=
  customs.foldl Registry.register Registry.builtin

theorem builtin_raises {missing : String → Prop} {name : String} {f : FunctionDef}
    (hget : Registry.builtin.get? name = some f) : f.Raises (Error.IsData missing) :=
  (builtinFunctions_raise f (Registry.mem_of_get?_ofList hget)).mono fun _ he => he.isData

theorem withHost_raises {customs : List FunctionDef} (hcustoms : AreHostFunctions customs)
    (missing : String → Prop) {name : String} {f : FunctionDef}
    (hget : (Registry.withHost customs).get? name = some f) :
    f.Raises fun e => e.IsData missing ∨ RaisedByHost customs e := by
  rcases Registry.mem_of_get?_foldl_register hget with hf | hf
  · obtain ⟨⟨run, hbody⟩, hname⟩ := hcustoms f hf
    exact raises_eager hbody hname fun args ctx e he => .inr ⟨f, hf, run, hbody, args, ctx, he⟩
  · exact (builtin_raises hf).mono fun _ => .inl

/-- A valid formula over a master record fails with errors of the data, where every declared field
is in the record or may be missing. -/
theorem validated_failsOnly {customs : List FunctionDef} (hcustoms : AreHostFunctions customs)
    {fields : List DataField} {formula : String} {missing : String → Prop} {ctx : Context}
    (hvalid : (Registry.withHost customs).validate fields formula = none)
    (hfields : ∀ field ∈ fields, (ctx.master.get? field.name).isSome ∨ missing field.name) :
    FailsOnly (fun e => e.IsData missing ∨ RaisedByHost customs e)
      ((Registry.withHost customs).evaluate formula ctx) := by
  -- A formula without a fault has been parsed and checked.
  obtain ⟨e, hcheck⟩ := validate_eq_none_iff_check.mp hvalid
  obtain ⟨hparse, hknown, hcalls, hstars⟩ := check_eq_ok_iff.mp hcheck
  rw [Registry.evaluate, hparse]
  refine Expr.evaluate_failsOnly (fun e he => .inl he.isData)
    (fun name f => withHost_raises hcustoms missing) hcalls hstars (fun name hname => ?_) rfl
  -- A name is a system variable or declared, and a declared one may be missing.
  rcases hknown name hname with hsystem | hdeclared
  · exact .inl hsystem
  · obtain ⟨field, hfield, rfl⟩ := List.mem_map.mp hdeclared
    exact .inr ((hfields field hfield).imp_right .inl)

/-- **Valid formulas do not fail for reasons of form.** A formula that passes validation, with the
built-in functions and functions of the host, gives in every context a value, or an error of the
data whose missing field, if any, is a declared one, or an error that a function of the host
raised. When the master record has every declared field, no field is missing. -/
theorem valid_formula_safe (customs : List FunctionDef) (hcustoms : AreHostFunctions customs)
    (fields : List DataField) (formula : String)
    (hvalid : (Registry.withHost customs).validate fields formula = none) (ctx : Context) :
    (∀ e, (Registry.withHost customs).evaluate formula ctx = .error e →
      e.IsData (· ∈ fields.map (·.name)) ∨ RaisedByHost customs e) ∧
    ((∀ field ∈ fields, (ctx.master.get? field.name).isSome) →
      ∀ e, (Registry.withHost customs).evaluate formula ctx = .error e →
        e.IsValueError ∨ RaisedByHost customs e) := by
  refine ⟨validated_failsOnly hcustoms hvalid fun field hfield => ?_, fun hmaster => ?_⟩
  · exact .inr (List.mem_map_of_mem hfield)
  · exact validated_failsOnly hcustoms hvalid fun field hfield => .inl (hmaster field hfield)

/-- A function of the host that doubles a number. -/
private def double : FunctionDef :=
  .ofHost "DOUBLE" (.exactly 1) fun args _ => do
    return .number ((← numberArgument "DOUBLE" args 0) * 2.0)

private theorem double_isHostFunction : AreHostFunctions [double] := by
  intro f hf
  obtain rfl : f = double := List.mem_singleton.mp hf
  exact ⟨⟨_, rfl⟩, by decide⟩

private theorem double_parse :
    Expr.parse "DOUBLE(\x7bprice\x7d)" = .ok (.call "DOUBLE" [.reference "price"]) := by
  have hname : isIdentifier "DOUBLE".toList = true := by decide +kernel
  have hprice : Written ('\x7b' :: ("price".toList ++ ['\x7d']))
      (.factor (.reference (String.ofList "price".toList))) :=
    Written.reference (by decide) (by simp [isBrace]) (by decide +kernel)
  have hcall := Written.call hname hprice.term.expression.argument.lastArgument
  exact hcall.term.expression.parse_eq

private theorem double_validate :
    (Registry.withHost [double]).validate [.ofName .master "price"] "DOUBLE(\x7bprice\x7d)" =
      none := by
  have hget : (Registry.withHost [double]).get? "DOUBLE" = some double := by
    show (Registry.builtin.register double).get? "DOUBLE" = _
    rw [Registry.get?_register]
    exact if_pos rfl
  -- Its name is declared, its call has one argument, and there is no star.
  refine validate_eq_none_iff_check.mpr ⟨_, check_eq_ok_iff.mpr ⟨double_parse, ?_, ?_, ?_⟩⟩
  · intro name hname
    obtain ⟨a, ha, hprice⟩ := Expr.mem_references_call.mp hname
    obtain rfl := List.mem_singleton.mp ha
    obtain rfl := Expr.mem_references_reference.mp hprice
    exact .inr (by decide)
  · refine Expr.callsAccepted_call.mpr ⟨⟨double, hget, by decide⟩, fun a ha => ?_⟩
    obtain rfl := List.mem_singleton.mp ha
    rintro c ⟨⟩
  · refine .call "DOUBLE" fun a ha => ?_
    obtain rfl := List.mem_singleton.mp ha
    exact .reference "price"

/-- A field that is missing, and one that is there. -/
theorem valid_formula_safe_double :
    (∀ now e, (Registry.withHost [double]).evaluate "DOUBLE(\x7bprice\x7d)"
        (.ofMaster .empty now) = .error e →
      e.IsData (· ∈ ["price"]) ∨ RaisedByHost [double] e) ∧
    ∀ now e, (Registry.withHost [double]).evaluate "DOUBLE(\x7bprice\x7d)"
        (.ofMaster (.ofList [("price", .number 2.0)]) now) = .error e →
      e.IsValueError ∨ RaisedByHost [double] e := by
  constructor
  · intro now
    exact (valid_formula_safe [double] double_isHostFunction [.ofName .master "price"] _
      double_validate (.ofMaster .empty now)).1
  · -- The price is there, so no error of a missing field is left.
    intro now
    refine (valid_formula_safe [double] double_isHostFunction [.ofName .master "price"] _
      double_validate (.ofMaster (.ofList [("price", .number 2.0)]) now)).2 fun field hfield => ?_
    obtain rfl := List.mem_singleton.mp hfield
    rfl

end BandedReport.Formula
