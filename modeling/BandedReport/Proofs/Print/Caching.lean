import BandedReport.Print.Session

/-!
# Kept formulas

Reading a formula gives the same result every time, so it does not show whether formulas are kept.
A pass that keeps them follows the pass that does not: from a cache that holds what reading gives,
it comes to the same value and the same tally, and leaves such a cache behind.

`Cached.Follows` is closed under the ways in which a pass is put together. It is carried through the
pass from the evaluation of one formula to the printing of a report.
-/

namespace BandedReport

open Formula (Context Expr Outcome)
open Printing (count readFormula)

/-! ## §1 Sound caches -/

namespace ParseCache

/-- Whatever is kept for a text is what reading the text gives. -/
def Sound (c : ParseCache) : Prop :=
  ∀ text formula, c.get? text = some formula → formula = Expr.parse text

theorem sound_empty : empty.Sound := by
  rintro text formula ⟨⟩

theorem Sound.insert {c : ParseCache} (h : c.Sound) (text : String) :
    (c.insert text (Expr.parse text)).Sound := by
  intro other formula hget
  rw [get?, ParseCache.insert, List.lookup_cons] at hget
  split at hget
  · rename_i heq
    cases hget
    rw [eq_of_beq heq]
  · exact h other formula hget

end ParseCache

/-! ## §2 Following a pass without a cache -/

/-- From a sound cache the computation comes to the value and the tally of another, and leaves a
sound cache. -/
def Cached.Follows {α : Type} (x : Cached α) (y : Counted α) : Prop :=
  ∀ cache : ParseCache, cache.Sound →
    ∃ cache' : ParseCache, cache'.Sound ∧ x.run cache = ⟨(y.value, cache'), y.tally⟩

namespace Cached.Follows

variable {α β : Type}

theorem pure (a : α) : Follows (Pure.pure a) (Pure.pure a) :=
  fun cache hcache => ⟨cache, hcache, rfl⟩

theorem bind {x : Cached α} {y : Counted α} {f : α → Cached β} {g : α → Counted β}
    (hx : Follows x y) (hf : ∀ a, Follows (f a) (g a)) : Follows (x >>= f) (y >>= g) := by
  intro cache hcache
  obtain ⟨cache', hcache', hrun⟩ := hx cache hcache
  obtain ⟨cache'', hcache'', hrun'⟩ := hf y.value cache' hcache'
  refine ⟨cache'', hcache'', ?_⟩
  rw [StateT.run_bind, hrun]
  show Counted.mk ((f y.value).run cache').value (y.tally + ((f y.value).run cache').tally) = _
  rw [hrun']
  rfl

theorem mapM {f : α → Cached β} {g : α → Counted β} (h : ∀ a, Follows (f a) (g a))
    (l : List α) : Follows (l.mapM f) (l.mapM g) := by
  induction l with
  | nil => exact .pure []
  | cons a as ih =>
    rw [List.mapM_cons, List.mapM_cons]
    exact .bind (h a) fun _ => .bind ih fun _ => .pure _

theorem count (t : Tally) : Follows (Printing.count t) (Printing.count t) :=
  fun cache hcache => ⟨cache, hcache, rfl⟩

/-- A formula that is kept is what reading gives; one that is read anew may be kept. -/
theorem readFormula (text : String) :
    Follows (Printing.readFormula text) (Printing.readFormula text) := by
  intro cache hcache
  -- A formula in the cache is what parsing its text gives, and one that is not is parsed and put
  -- there.
  cases hget : cache.get? text with
  | some formula =>
    refine ⟨cache, hcache, ?_⟩
    have hformula : formula = Expr.parse text := hcache text formula hget
    subst hformula
    simp only [Printing.readFormula, StateT.run_bind, StateT.run_get, pure_bind, hget]
    rfl
  | none =>
    refine ⟨cache.insert text (Expr.parse text), hcache.insert text, ?_⟩
    simp only [Printing.readFormula, StateT.run_bind, StateT.run_get, pure_bind, hget]
    rfl

end Cached.Follows

/-! ## §3 The pass -/

open Cached (Follows)

namespace Printer

variable {κ : Type} (p : Printer κ)

theorem evaluate_follows (formula : String) (ctx : Context) :
    Follows (p.evaluate formula ctx) (p.evaluate formula ctx) := by
  refine .bind (.count _) fun _ => .bind (.readFormula formula) fun read => ?_
  cases read with
  | ok e => exact .pure _
  | error e => exact .pure _

theorem background_follows (band : Band κ) (ctx : Context) :
    Follows (p.background band ctx) (p.background band ctx) := by
  unfold background
  split
  · exact .pure _
  · exact .bind (p.evaluate_follows _ ctx) fun _ => .pure _

theorem bodyText_follows (body : Body κ) (ctx : Context) :
    Follows (p.bodyText body ctx) (p.bodyText body ctx) := by
  -- Only a calculated box evaluates a formula.
  rcases body with ⟨frame, border, content⟩ | line
  · cases content with
    | calculated formula format fallback =>
      exact .bind (p.evaluate_follows formula ctx) fun _ => .pure _
    | _ => exact .pure _
  · exact .pure _

variable [Coordinate κ]

theorem bandHeight_follows (band : Band κ) (ctx : Context) :
    Follows (p.bandHeight band ctx) (p.bandHeight band ctx) := by
  unfold bandHeight
  split
  · exact .pure _
  · exact .bind (p.evaluate_follows _ ctx) fun _ => .pure _

theorem printObject_follows (band : Band κ) (ctx : Context) (c : Control κ) :
    Follows (p.printObject band ctx c) (p.printObject band ctx c) :=
  .bind (p.bodyText_follows c.body ctx) fun _ =>
    .bind (.count _) fun _ => .bind (.count _) fun _ => .pure _

theorem printBandOfHeight_follows (ctx : Context) (rowIndex : Option Nat) (height : κ)
    (band : Band κ) :
    Follows (p.printBandOfHeight ctx rowIndex height band)
      (p.printBandOfHeight ctx rowIndex height band) :=
  .bind (p.background_follows band ctx) fun _ => .bind (.count _) fun _ =>
    .bind (.mapM (p.printObject_follows band ctx) _) fun _ => .pure _

theorem printBand_follows (ctx : Context) (band : Band κ) :
    Follows (p.printBand ctx band) (p.printBand ctx band) :=
  .bind (p.bandHeight_follows band ctx) fun height =>
    p.printBandOfHeight_follows ctx none height band

variable (d : Design κ) (master : Record) (rows : List Record)

theorem printRow_follows (pageCtx : Context) (index : Nat) (row : Record) (heights : List κ) :
    Follows (p.printRow d pageCtx index row heights) (p.printRow d pageCtx index row heights) :=
  .mapM (fun _ => p.printBandOfHeight_follows _ _ _ _) _

theorem rowHeights_follows :
    Follows (p.rowHeights d master rows) (p.rowHeights d master rows) :=
  .mapM (fun _ => .mapM (fun _ => p.bandHeight_follows _ _) _) _

theorem printPage_follows (heights : List (List κ)) (totalPages : Nat) (range : RowRange)
    (pageNumber : Nat) :
    Follows (p.printPage d master rows heights totalPages range pageNumber)
      (p.printPage d master rows heights totalPages range pageNumber) :=
  .bind (.count _) fun _ =>
    .bind (.mapM (p.printBand_follows _) _) fun _ =>
    .bind (.mapM (fun _ => p.printRow_follows d _ _ _ _) _) fun _ =>
    .bind (.mapM (p.printBand_follows _) _) fun _ =>
    .bind (.mapM (p.printBand_follows _) _) fun _ => .pure _

theorem printPages_follows :
    Follows (p.printPages d master rows) (p.printPages d master rows) :=
  .bind (p.rowHeights_follows d master rows) fun heights =>
    .mapM (fun _ => p.printPage_follows d master rows heights _ _ _) _

end Printer

/-- A session prints the report that its printer prints without keeping formulas. -/
theorem PrintSession.print_eq {κ : Type} [Coordinate κ] (s : PrintSession κ) (d : Design κ)
    (master : Record) (rows : List Record) :
    (s.print d master rows).1 = s.printer.print d master rows := by
  obtain ⟨cache, -, hrun⟩ :=
    s.printer.printPages_follows d master rows .empty ParseCache.sound_empty
  rw [print, Printer.print]
  simp only [hrun]

end BandedReport
