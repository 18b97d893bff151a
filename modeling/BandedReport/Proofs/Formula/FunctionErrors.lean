import BandedReport.Proofs.Outcome
import BandedReport.Formula.Validation

/-!
# Errors of functions

Which errors a function can end with. The built-in functions fail on account of the data only: an
argument of the wrong type, an argument that does not suit, or a division by zero. Those that
select among the outcomes of their arguments pass on one of these outcomes.
-/

namespace BandedReport.Formula

/-! ## §1 Errors that the data give rise to -/

/-- The error says that the data do not allow a value; a field that it calls missing is one of
those that may be. -/
def Error.IsData (missing : String → Prop) : Error → Prop
  | typeMismatch _ | divideByZero | invalidArgument .. => True
  | missingField name => missing name
  | _ => False

/-- An error that no missing field is the cause of. -/
abbrev Error.IsValueError : Error → Prop := IsData fun _ => False

theorem Error.IsValueError.isData {e : Error} {missing : String → Prop} (h : e.IsValueError) :
    e.IsData missing := by
  cases e with
  | typeMismatch | divideByZero | invalidArgument => trivial
  | _ => exact absurd h id

/-- What a function promises of its errors. A function that takes values fails with errors of a
kind, a function that selects may also pass on an error of an argument, and an aggregate has an
argument to look at. Only an aggregate may have a name that is used with a star. -/
def FunctionDef.Raises (kind : Error → Prop) (f : FunctionDef) : Prop :=
  match f.body with
  | .eager run => f.name ∉ wildcardFunctions ∧ ∀ args ctx, FailsOnly kind (run args ctx)
  | .selective select => f.name ∉ wildcardFunctions ∧
      ∀ outcomes, FailsOnly (fun e => .error e ∈ outcomes ∨ kind e) (select outcomes)
  | .aggregate _ _ => 0 < f.arity.min

/-! ## §2 Arguments -/

variable {function : String} {args : List Scalar} {index : Nat}

theorem numberArgument_failsOnly :
    FailsOnly Error.IsValueError (numberArgument function args index) := by
  rw [numberArgument]
  split
  · exact .ok _
  · exact .error trivial

theorem optionalNumber_failsOnly {default : Float} :
    FailsOnly Error.IsValueError (optionalNumber function args index default) :=
  .ite numberArgument_failsOnly (.ok _)

theorem integerArgument_failsOnly :
    FailsOnly Error.IsValueError (integerArgument function args index) := by
  refine .bind numberArgument_failsOnly fun x => ?_
  dsimp only
  split
  · exact .ite (.ok _) (.error trivial)
  · exact .error trivial

theorem decimalsArgument_failsOnly {default : Nat} :
    FailsOnly Error.IsValueError (decimalsArgument function args index default) :=
  .ite (.bind integerArgument_failsOnly fun _ => .pure _) (.pure _)

theorem dateArgument_failsOnly :
    FailsOnly Error.IsValueError (dateArgument function args index) := by
  rw [dateArgument]
  split
  · exact .ok _
  · exact .error trivial

/-! ## §3 The groups of functions -/

/-- A list of functions, all of which fail with errors of values only. -/
abbrev AllRaiseValueErrors (functions : List FunctionDef) : Prop :=
  ∀ f ∈ functions, f.Raises Error.IsValueError

theorem raises_eager {f : FunctionDef} {run : List Scalar → Context → Outcome}
    {kind : Error → Prop} (hbody : f.body = .eager run) (hname : f.name ∉ wildcardFunctions)
    (h : ∀ args ctx, FailsOnly kind (run args ctx)) : f.Raises kind := by
  rw [FunctionDef.Raises, hbody]
  exact ⟨hname, h⟩

namespace Aggregate

theorem raises : AllRaiseValueErrors functions := by
  intro f hf
  obtain ⟨row, -, hrow⟩ := List.mem_flatMap.mp hf
  simp only [define, List.mem_cons, List.not_mem_nil, or_false] at hrow
  rcases hrow with rfl | rfl <;> exact Nat.one_pos

end Aggregate

namespace Math

theorem unary_failsOnly (name : String) (f : Float → Float) (args : List Scalar) :
    FailsOnly Error.IsValueError (unary name f args) :=
  .bind numberArgument_failsOnly fun _ => .pure _

theorem round_failsOnly (args : List Scalar) : FailsOnly Error.IsValueError (round args) :=
  .bind numberArgument_failsOnly fun _ =>
    .bind optionalNumber_failsOnly fun _ => .pure _

theorem modulo_failsOnly (args : List Scalar) : FailsOnly Error.IsValueError (modulo args) :=
  .bind numberArgument_failsOnly fun _ =>
    .bind numberArgument_failsOnly fun _ => .ite (.error trivial) (.pure _)

theorem raises : AllRaiseValueErrors functions := by
  simp only [AllRaiseValueErrors, functions, List.forall_mem_cons]
  refine ⟨?_, ?_, ?_, ?_, ?_, nofun⟩
  · exact raises_eager rfl (by decide) fun args _ => round_failsOnly args
  · exact raises_eager rfl (by decide) fun args _ => unary_failsOnly _ _ args
  · exact raises_eager rfl (by decide) fun args _ => unary_failsOnly _ _ args
  · exact raises_eager rfl (by decide) fun args _ => unary_failsOnly _ _ args
  · exact raises_eager rfl (by decide) fun args _ => modulo_failsOnly args

end Math

namespace Text

theorem left_failsOnly (args : List Scalar) : FailsOnly Error.IsValueError (left args) :=
  .bind integerArgument_failsOnly fun _ => .pure _

theorem right_failsOnly (args : List Scalar) : FailsOnly Error.IsValueError (right args) :=
  .bind integerArgument_failsOnly fun _ => .pure _

theorem mid_failsOnly (args : List Scalar) : FailsOnly Error.IsValueError (mid args) :=
  .bind integerArgument_failsOnly fun _ => .bind integerArgument_failsOnly fun _ => .pure _

theorem replace_failsOnly (args : List Scalar) : FailsOnly Error.IsValueError (replace args) := by
  rw [replace]
  split
  · exact .ok _
  · exact .ok _

theorem raises : AllRaiseValueErrors functions := by
  simp only [AllRaiseValueErrors, functions, List.forall_mem_cons]
  refine ⟨?_, ?_, ?_, ?_, ?_, ?_, ?_, ?_, ?_, nofun⟩
  · exact raises_eager rfl (by decide) fun _ _ => .ok _
  · exact raises_eager rfl (by decide) fun args _ => left_failsOnly args
  · exact raises_eager rfl (by decide) fun args _ => right_failsOnly args
  · exact raises_eager rfl (by decide) fun args _ => mid_failsOnly args
  · exact raises_eager rfl (by decide) fun _ _ => .ok _
  · exact raises_eager rfl (by decide) fun _ _ => .ok _
  · exact raises_eager rfl (by decide) fun _ _ => .ok _
  · exact raises_eager rfl (by decide) fun _ _ => .ok _
  · exact raises_eager rfl (by decide) fun args _ => replace_failsOnly args

end Text

namespace Calendar

theorem part_failsOnly (name : String) (f : Date → Int) (args : List Scalar) :
    FailsOnly Error.IsValueError (part name f args) :=
  .bind dateArgument_failsOnly fun _ => .pure _

theorem dateFormat_failsOnly (args : List Scalar) :
    FailsOnly Error.IsValueError (dateFormat args) :=
  .bind dateArgument_failsOnly fun _ => .pure _

theorem dateDiff_failsOnly (args : List Scalar) : FailsOnly Error.IsValueError (dateDiff args) :=
  .bind dateArgument_failsOnly fun _ => .bind dateArgument_failsOnly fun _ => .pure _

theorem raises : AllRaiseValueErrors functions := by
  simp only [AllRaiseValueErrors, functions, List.forall_mem_cons]
  refine ⟨?_, ?_, ?_, ?_, ?_, ?_, ?_, nofun⟩
  · exact raises_eager rfl (by decide) fun _ _ => .ok _
  · exact raises_eager rfl (by decide) fun _ _ => .ok _
  · exact raises_eager rfl (by decide) fun args _ => part_failsOnly _ _ args
  · exact raises_eager rfl (by decide) fun args _ => part_failsOnly _ _ args
  · exact raises_eager rfl (by decide) fun args _ => part_failsOnly _ _ args
  · exact raises_eager rfl (by decide) fun args _ => dateFormat_failsOnly args
  · exact raises_eager rfl (by decide) fun args _ => dateDiff_failsOnly args

end Calendar

namespace Format

theorem format_failsOnly (args : List Scalar) : FailsOnly Error.IsValueError (format args) := by
  rw [format]
  split
  · exact .ok _
  · exact .bind numberArgument_failsOnly fun _ => .pure _

theorem fixed_failsOnly (args : List Scalar) : FailsOnly Error.IsValueError (fixed args) :=
  .bind numberArgument_failsOnly fun _ => .bind decimalsArgument_failsOnly fun _ => .pure _

theorem padLeft_failsOnly (args : List Scalar) : FailsOnly Error.IsValueError (padLeft args) :=
  .bind integerArgument_failsOnly fun _ => .ite (.error trivial) (.pure _)

theorem toChinese_failsOnly (args : List Scalar) :
    FailsOnly Error.IsValueError (toChinese args) := by
  refine .bind numberArgument_failsOnly fun x => ?_
  cases Amount.chinese? x with
  | some s => exact .pure _
  | none => exact .error trivial

theorem currency_failsOnly (args : List Scalar) : FailsOnly Error.IsValueError (currency args) :=
  .bind numberArgument_failsOnly fun _ => .bind decimalsArgument_failsOnly fun _ => .pure _

theorem raises : AllRaiseValueErrors functions := by
  simp only [AllRaiseValueErrors, functions, List.forall_mem_cons]
  refine ⟨?_, ?_, ?_, ?_, ?_, nofun⟩
  · exact raises_eager rfl (by decide) fun args _ => format_failsOnly args
  · exact raises_eager rfl (by decide) fun args _ => fixed_failsOnly args
  · exact raises_eager rfl (by decide) fun args _ => padLeft_failsOnly args
  · exact raises_eager rfl (by decide) fun args _ => toChinese_failsOnly args
  · exact raises_eager rfl (by decide) fun args _ => currency_failsOnly args

end Format

namespace Finance

theorem ofAmountAndRate_failsOnly (name : String) (f : (amount rate : Float) → Float)
    (args : List Scalar) : FailsOnly Error.IsValueError (ofAmountAndRate name f args) :=
  .bind numberArgument_failsOnly fun _ => .bind numberArgument_failsOnly fun _ => .pure _

theorem raises : AllRaiseValueErrors functions := by
  simp only [AllRaiseValueErrors, functions, List.forall_mem_cons]
  refine ⟨?_, ?_, ?_, ?_, nofun⟩
  all_goals exact raises_eager rfl (by decide) fun args _ => ofAmountAndRate_failsOnly _ _ args

end Finance

namespace Logic

theorem failsOnly_of_mem {outcomes : List Outcome} {outcome : Outcome}
    (h : outcome ∈ outcomes) : FailsOnly (fun e => .error e ∈ outcomes) outcome := by
  rintro e rfl
  exact h

theorem choose_failsOnly (outcomes : List Outcome) :
    FailsOnly (fun e => .error e ∈ outcomes) (choose outcomes) := by
  rw [choose.eq_def]
  split
  · exact .bind (failsOnly_of_mem (by simp)) fun _ =>
      .ite (failsOnly_of_mem (by simp)) (failsOnly_of_mem (by simp))
  · exact .ok _

theorem orDefault_failsOnly (outcomes : List Outcome) :
    FailsOnly (fun e => .error e ∈ outcomes) (orDefault outcomes) := by
  rw [orDefault.eq_def]
  split
  · split
    · exact .ite (failsOnly_of_mem (by simp)) (.ok _)
    · exact failsOnly_of_mem (by simp)
    · exact failsOnly_of_mem (by simp)
  · exact .ok _

theorem conjunction_failsOnly (outcomes : List Outcome) :
    FailsOnly (fun e => .error e ∈ outcomes) (conjunction outcomes) := by
  induction outcomes with
  | nil => exact .ok _
  | cons outcome rest ih =>
    have hrest := ih.mono fun e he => List.mem_cons_of_mem outcome he
    exact .bind (failsOnly_of_mem List.mem_cons_self) fun _ => .ite hrest (.pure _)

theorem disjunction_failsOnly (outcomes : List Outcome) :
    FailsOnly (fun e => .error e ∈ outcomes) (disjunction outcomes) := by
  induction outcomes with
  | nil => exact .ok _
  | cons outcome rest ih =>
    have hrest := ih.mono fun e he => List.mem_cons_of_mem outcome he
    exact .bind (failsOnly_of_mem List.mem_cons_self) fun _ => .ite (.pure _) hrest

theorem raises_selective {f : FunctionDef} {select : List Outcome → Outcome}
    (hbody : f.body = .selective select) (hname : f.name ∉ wildcardFunctions)
    (h : ∀ outcomes, FailsOnly (fun e => .error e ∈ outcomes) (select outcomes)) :
    f.Raises Error.IsValueError := by
  rw [FunctionDef.Raises, hbody]
  exact ⟨hname, fun outcomes => (h outcomes).mono fun _ => .inl⟩

theorem raises : AllRaiseValueErrors functions := by
  simp only [AllRaiseValueErrors, functions, List.forall_mem_cons]
  refine ⟨?_, ?_, ?_, ?_, ?_, ?_, nofun⟩
  · exact raises_selective rfl (by decide) choose_failsOnly
  · exact raises_selective rfl (by decide) choose_failsOnly
  · exact raises_selective rfl (by decide) orDefault_failsOnly
  · exact raises_selective rfl (by decide) conjunction_failsOnly
  · exact raises_selective rfl (by decide) disjunction_failsOnly
  · exact raises_eager rfl (by decide) fun _ _ => .ok _

end Logic

/-- No built-in function fails but on account of its values. -/
theorem builtinFunctions_raise : AllRaiseValueErrors builtinFunctions := by
  simp only [AllRaiseValueErrors, builtinFunctions, List.forall_mem_append]
  exact ⟨⟨⟨⟨⟨⟨Aggregate.raises, Math.raises⟩, Text.raises⟩, Calendar.raises⟩, Logic.raises⟩,
    Format.raises⟩, Finance.raises⟩

theorem FunctionDef.Raises.mono {f : FunctionDef} {kind kind' : Error → Prop}
    (h : f.Raises kind) (hkind : ∀ e, kind e → kind' e) : f.Raises kind' := by
  rw [Raises] at h ⊢
  cases hbody : f.body with
  | eager run =>
    rw [hbody] at h
    exact ⟨h.1, fun args ctx => (h.2 args ctx).mono hkind⟩
  | selective select =>
    rw [hbody] at h
    exact ⟨h.1, fun outcomes => (h.2 outcomes).mono fun e => Or.imp_right (hkind e)⟩
  | aggregate scope reduce =>
    rw [hbody] at h
    exact h

/-! ## §4 Registries -/

namespace Registry

private theorem find?_putFunction (f : FunctionDef) (functions : List FunctionDef)
    (name : String) :
    (putFunction f functions).find? (·.name == name) =
      if f.name = name then some f else functions.find? (·.name == name) := by
  -- The list is sorted by names: the function comes before a larger name, replaces its own name,
  -- or goes further down.
  induction functions with
  | nil => by_cases h : f.name = name <;> simp [putFunction, h]
  | cons g rest ih =>
    rw [putFunction]
    split
    · by_cases h : f.name = name <;> simp [h]
    · split
      · rename_i _ hsame
        rw [beq_iff_eq] at hsame
        by_cases h : f.name = name <;> simp [h, hsame]
      · rename_i _ hother
        rw [beq_iff_eq] at hother
        -- The function was not found under the name of another, so it is looked for further down.
        by_cases h : g.name = name
        · have hf : f.name ≠ name := fun hf => hother (h.trans hf.symm)
          simp [h, hf]
        · simp [h, ih]

/-- A function takes the place of the one of its name, and leaves the others. -/
theorem get?_register (r : Registry) (f : FunctionDef) (name : String) :
    (r.register f).get? name = if f.name = name then some f else r.get? name :=
  find?_putFunction f r.functions name

/-- What is found after a list of functions was registered is one of them or was there before. -/
theorem mem_of_get?_foldl_register {r : Registry} {functions : List FunctionDef} {name : String}
    {f : FunctionDef} (h : (functions.foldl register r).get? name = some f) :
    f ∈ functions ∨ r.get? name = some f := by
  induction functions generalizing r with
  | nil => exact .inr h
  | cons g rest ih =>
    rcases ih h with hrest | hg
    · exact .inl (List.mem_cons_of_mem g hrest)
    · rw [get?_register] at hg
      split at hg
      · obtain rfl : g = f := Option.some.inj hg
        exact .inl List.mem_cons_self
      · exact .inr hg

theorem mem_of_get?_ofList {functions : List FunctionDef} {name : String} {f : FunctionDef}
    (h : (ofList functions).get? name = some f) : f ∈ functions := by
  rcases mem_of_get?_foldl_register h with hmem | hnone
  · exact hmem
  · cases hnone

theorem name_of_get? {r : Registry} {name : String} {f : FunctionDef}
    (h : r.get? name = some f) : f.name = name := by
  have hname := List.find?_some h
  simpa using hname

end Registry

end BandedReport.Formula
