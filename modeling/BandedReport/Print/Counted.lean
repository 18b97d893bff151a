import BandedReport.Formula.Parser
import BandedReport.Print.Report

/-!
# Counting while printing

The print pass is written once for every monad in which formulas can be read and things can be
counted. `Counted` reads every formula anew; `Cached` keeps the formulas that it has read.
-/

namespace BandedReport

open Formula (Expr)

/-- A formula that was read, or why it could not be. -/
abbrev ReadFormula := Except Formula.Error Expr

/-- A monad to print in. -/
class Printing (m : Type → Type) extends Monad m where
  /-- Read a formula. -/
  readFormula : String → m ReadFormula
  /-- Add to the tally. -/
  count : Tally → m Unit

/-! ## Counted values -/

/-- A value, and what was counted on the way to it. -/
structure Counted (α : Type) where
  value : α
  tally : Tally

namespace Counted

instance : Monad Counted where
  pure a := ⟨a, .zero⟩
  bind x f := ⟨(f x.value).value, x.tally + (f x.value).tally⟩

instance : LawfulMonad Counted :=
  LawfulMonad.mk' _
    (fun _ => rfl)
    (fun a f => by
      change Counted.mk (f a).value (Tally.zero + (f a).tally) = f a
      rw [Tally.zero_add])
    (fun x f g => by
      change Counted.mk _ (x.tally + (f x.value).tally + _) = Counted.mk _ (x.tally + (_ + _))
      rw [Tally.add_assoc]
      rfl)

@[simp] theorem value_pure {α : Type} (a : α) : (pure a : Counted α).value = a := rfl

@[simp] theorem tally_pure {α : Type} (a : α) : (pure a : Counted α).tally = .zero := rfl

@[simp] theorem value_bind {α β : Type} (x : Counted α) (f : α → Counted β) :
    (x >>= f).value = (f x.value).value := rfl

@[simp] theorem tally_bind {α β : Type} (x : Counted α) (f : α → Counted β) :
    (x >>= f).tally = x.tally + (f x.value).tally := rfl

instance : Printing Counted where
  readFormula text := ⟨Expr.parse text, .zero⟩
  count t := ⟨(), t⟩

end Counted

/-! ## Cached formulas -/

/-- The formulas that were read so far. -/
structure ParseCache where
  entries : List (String × ReadFormula)

namespace ParseCache

/-- No formula was read. -/
def empty : ParseCache := ⟨[]⟩

/-- What was read for a text. -/
def get? (c : ParseCache) (text : String) : Option ReadFormula := c.entries.lookup text

/-- Keep what was read for a text. -/
def insert (c : ParseCache) (text : String) (formula : ReadFormula) : ParseCache :=
  ⟨(text, formula) :: c.entries⟩

end ParseCache

/-- Counted values that may depend on the formulas read so far, and add to them. -/
abbrev Cached := StateT ParseCache Counted

instance : Printing Cached where
  readFormula text := do
    let cache ← get
    match cache.get? text with
    | some formula => return formula
    | none =>
      let formula ← (Printing.readFormula text : Counted ReadFormula)
      set (cache.insert text formula)
      return formula
  count t := (Printing.count t : Counted Unit)

end BandedReport
