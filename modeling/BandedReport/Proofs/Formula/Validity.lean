import BandedReport.Proofs.Formula.Neighbours
import BandedReport.Proofs.Formula.Parsing
import BandedReport.Proofs.Outcome

/-!
# What validation accepts

The quick check works on tokens, with a window of one word to either side and a stack of open
calls; the parser builds a tree. Together with the check of calls they accept a formula just when
it has a tree and the tree is well formed: the quick check turns down nothing that the tree would
pass, and lets nothing through that the tree forbids.
-/

namespace BandedReport.Formula

variable {r : Registry} {fields : List DataField} {formula : String} {e : Expr}

/-! ## §1 The checks on tokens -/

/-- Where the tokens derive a tree, the delimiters match and the operators have operands: the quick
check is that of the argument slots and then that of the variables. -/
theorem Derives.quickCheck_eq {tokens : List Placed} (h : Derives tokens (.expression e))
    (hchars : trimChars formula.toList ≠ [])
    (hscan : Token.scan (trimChars formula.toList) = .ok tokens) (declared : List String) :
    quickCheck r declared formula =
      checkArguments r tokens >>= fun _ => checkVariables declared tokens := by
  rw [quickCheck]
  simp only [List.isEmpty_iff, hchars, if_false, hscan, bind, Except.bind, h.checkDelimiters_eq,
    h.checkOperators_eq]

/-- For a formula with a tree the quick check is what its four parts say of the tree. -/
theorem quickCheck_eq_ok_iff {declared : List String} (h : Expr.parse formula = .ok e) :
    quickCheck r declared formula = .ok () ↔
      (e.StarsPlaced ∧ e.NoneMissing r) ∧ ∀ name ∈ e.references, isKnown declared name := by
  obtain ⟨hchars, tokens, hscan, hderives⟩ := parse_eq_ok_iff.mp h
  rw [← hderives.checkArguments_eq_ok_iff, ← hderives.checkVariables_eq_ok_iff,
    hderives.quickCheck_eq hchars hscan, bind_eq_ok_iff]
  exact ⟨fun ⟨(), hchecks⟩ => hchecks, fun hchecks => ⟨(), hchecks⟩⟩

theorem isKnown_iff {name : String} :
    isKnown (fields.map (·.name)) name = true ↔
      isSystemVariable name = true ∨ name ∈ fields.map (·.name) := by
  rw [isKnown, Bool.or_eq_true, List.contains_iff_mem]

/-! ## §2 The full check -/

/-- The full check succeeds with the tree of the formula, if that is well formed. -/
theorem check_eq_ok_iff :
    r.check fields formula = .ok e ↔ Expr.parse formula = .ok e ∧
      (∀ name ∈ e.references, isSystemVariable name = true ∨ name ∈ fields.map (·.name)) ∧
        e.CallsAccepted r ∧ e.StarsPlaced := by
  simp only [Registry.check, bind_eq_ok_iff, pure_eq_ok_iff]
  constructor
  · -- The check is the quick check, the parser and the check of all calls.
    rintro ⟨⟨⟩, hquick, _, hparse, ⟨⟩, hcalls, rfl⟩
    obtain ⟨⟨hstars, -⟩, hknown⟩ := (quickCheck_eq_ok_iff hparse).mp hquick
    exact ⟨hparse, fun name hname => isKnown_iff.mp (hknown name hname),
      Expr.checkCalls_eq_ok_iff.mp hcalls, hstars⟩
  · rintro ⟨hparse, hknown, hcalls, hstars⟩
    -- What the quick check says of missing arguments follows from the arities.
    have hmissing : e.NoneMissing r := Expr.noneMissing_of_callsAccepted hcalls
    refine ⟨(), (quickCheck_eq_ok_iff hparse).mpr ⟨⟨hstars, hmissing⟩, ?_⟩, e, hparse, (),
      Expr.checkCalls_eq_ok_iff.mpr hcalls, rfl⟩
    exact fun name hname => isKnown_iff.mpr (hknown name hname)

theorem validate_eq_none_iff_check :
    r.validate fields formula = none ↔ ∃ e, r.check fields formula = .ok e := by
  rw [Registry.validate]
  cases r.check fields formula <;> simp

/-- **Validation is exact.** A formula is valid just when it has a tree whose references are
system variables or declared fields, whose calls all name a registered function that accepts their
number of arguments, and whose stars are each the only argument of a function that counts. -/
theorem validate_eq_none_iff :
    r.validate fields formula = none ↔
      ∃ e, Expr.parse formula = .ok e ∧
        (∀ name ∈ e.references, isSystemVariable name = true ∨ name ∈ fields.map (·.name)) ∧
          e.CallsAccepted r ∧ e.StarsPlaced := by
  rw [validate_eq_none_iff_check]
  exact exists_congr fun _ => check_eq_ok_iff

end BandedReport.Formula
