import BandedReport.Formula.Functions.Argument
import BandedReport.Proofs.Counterparts
import BandedReport.Proofs.Decimal.Sums
import BandedReport.Proofs.Formula.Tree

/-!
# Calls on values

A call whose arguments have values comes to what the body of its function makes of these values,
and an argument that is worth an integer in range is taken as this integer.
-/

namespace BandedReport.Formula

variable {r : Registry} {ctx : Context}

/-- A star has no value. -/
theorem Expr.isWildcard_of_evaluate {e : Expr} {v : Scalar} (h : e.evaluate r ctx = .ok v) :
    e.isWildcard = false := by
  cases e with
  | wildcard =>
    rw [evaluate] at h
    cases h
  | literal | reference | negate | binary | call => rfl

/-- A function that takes values is run on the values of its arguments. -/
theorem Expr.evaluate_eager {function : String} {f : FunctionDef}
    {run : List Scalar → Context → Outcome} (hget : r.get? function = some f)
    (hbody : f.body = .eager run) {args : List Expr} {values : List Scalar}
    (harity : f.arity.accepts args.length = true)
    (hvalues : List.Forall₂ (fun e v => e.evaluate r ctx = .ok v) args values) :
    (call function args).evaluate r ctx = run values ctx >>= finiteOutcome := by
  have hmap : args.mapM (·.evaluate r ctx) = .ok values := mapM_eq_ok_of_forall₂ hvalues
  -- An argument with a value is not a star.
  have hstars : (args.map (toArgument r)).findIdx? (·.isWildcard) = none := by
    rw [List.findIdx?_eq_none_iff]
    intro a ha
    obtain ⟨e, he, rfl⟩ := List.mem_map.mp ha
    obtain ⟨v, hv⟩ := exists_ok_of_mapM hmap e he
    exact isWildcard_of_evaluate hv
  have harguments : (args.map (toArgument r)).mapM (·.value ctx) = .ok values :=
    List.mapM_map.trans hmap
  -- The function is found, its arguments are counted and their values passed on.
  rw [evaluate, arguments_eq_map, Registry.call, hget]
  simp only [List.length_map, harity, if_true]
  rw [FunctionDef.runBody, hbody]
  simp only [hstars, harguments]
  rfl

/-- Nothing is dropped of an integer. -/
theorem integerArgument_eq {function : String} {args : List Scalar} {index : ℕ} {x : Float}
    {n : ℤ} (h : args[index]? = some (.number x)) (hx : Worth x n) (hn : n.natAbs ≤ maxInteger) :
    integerArgument function args index = .ok n := by
  obtain ⟨v, hv, hintegral, hpart⟩ := hx.integerPart_eq
  have hnumber : numberArgument function args index = .ok x := by
    rw [numberArgument, argument, h]
    rfl
  have htruncate : truncate x = x := by rw [truncate_finite hv, if_pos hintegral]
  simp only [integerArgument, hnumber, bind, Except.bind, htruncate, hv, hpart, if_pos hn]

end BandedReport.Formula
