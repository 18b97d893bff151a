import BandedReport.Proofs.Print.Caching

/-!
# Sessions of calls

A session answers one call after the other: it splits rows into pages, or prints a report. Between
the calls it keeps the formulas that it has read, those that could not be read included; printing
begins with none of them, splitting goes on with what there is. Nothing of this shows: every call is
answered as a session that was just started answers it.

* `PrintCall` and `PrintAnswer` are the calls and what they are answered with;
* `PrintSession.Sound` is the invariant that carries a session from call to call: whatever is kept
  for a text is what reading the text gives;
* `PrintSession.run_answers` says that the answers of a session are those of fresh sessions.
-/

namespace BandedReport

open Formula (Expr)

variable {κ : Type} [Coordinate κ]

/-! ## §1 Calls and answers -/

/-- A call to a session: what it asks for, and the design and the data it is asked about. -/
inductive PrintCall (κ : Type) where
  | paginate (d : Design κ) (master : Record) (rows : List Record)
  | print (d : Design κ) (master : Record) (rows : List Record)

/-- What a call is answered with. A report comes with its tally. -/
inductive PrintAnswer (κ : Type) where
  | pages (ranges : List RowRange)
  | report (report : Report κ)

/-- The answer of a printer that reads every formula anew. -/
def Printer.answer (p : Printer κ) : PrintCall κ → PrintAnswer κ
  | .paginate d master rows => .pages (p.paginate d master rows)
  | .print d master rows => .report (p.print d master rows)

namespace PrintSession

/-- The answer to a call, and the session after it. -/
def answer (s : PrintSession κ) : PrintCall κ → PrintAnswer κ × PrintSession κ
  | .paginate d master rows =>
    let (ranges, s) := s.paginate d master rows
    (.pages ranges, s)
  | .print d master rows =>
    let (report, s) := s.print d master rows
    (.report report, s)

/-- The answers to calls, one after the other, and the session after them. -/
def run (s : PrintSession κ) : List (PrintCall κ) → List (PrintAnswer κ) × PrintSession κ
  | [] => ([], s)
  | call :: calls =>
    let (first, s) := s.answer call
    let (others, s) := s.run calls
    (first :: others, s)

/-! ## §2 The invariant -/

/-- The session prints with the printer, and keeps only what reading gives. -/
structure Sound (p : Printer κ) (s : PrintSession κ) : Prop where
  printer : s.printer = p
  cache : s.cache.Sound

omit [Coordinate κ] in
theorem sound_start (p : Printer κ) : (start p).Sound p := ⟨rfl, ParseCache.sound_empty⟩

variable {p : Printer κ} {s : PrintSession κ}

theorem Sound.paginate (hs : s.Sound p) (d : Design κ) (master : Record) (rows : List Record) :
    (s.paginate d master rows).1 = p.paginate d master rows ∧
      (s.paginate d master rows).2.Sound p := by
  obtain ⟨rfl, hcache⟩ := hs
  -- The pass goes on with the formulas that are kept.
  obtain ⟨cache, hsound, hrun⟩ :=
    s.printer.rowHeights_follows d master rows s.cache hcache
  rw [PrintSession.paginate, Printer.paginate]
  simp only [hrun, true_and]
  exact ⟨rfl, hsound⟩

theorem Sound.print (hs : s.Sound p) (d : Design κ) (master : Record) (rows : List Record) :
    (s.print d master rows).1 = p.print d master rows ∧ (s.print d master rows).2.Sound p := by
  obtain ⟨rfl, -⟩ := hs
  refine ⟨s.print_eq d master rows, ?_⟩
  -- Whatever was kept before, the pass begins with no formula.
  obtain ⟨cache, hsound, hrun⟩ :=
    s.printer.printPages_follows d master rows .empty ParseCache.sound_empty
  rw [PrintSession.print]
  simp only [hrun]
  exact ⟨rfl, hsound⟩

/-- One call is answered as if no formula were kept, and leaves a sound session. -/
theorem Sound.answer (hs : s.Sound p) (call : PrintCall κ) :
    (s.answer call).1 = p.answer call ∧ (s.answer call).2.Sound p := by
  cases call with
  | paginate d master rows =>
    obtain ⟨hpages, hsound⟩ := hs.paginate d master rows
    exact ⟨congrArg PrintAnswer.pages hpages, hsound⟩
  | print d master rows =>
    obtain ⟨hreport, hsound⟩ := hs.print d master rows
    exact ⟨congrArg PrintAnswer.report hreport, hsound⟩

/-- All calls are answered as if no formula were kept, and the session stays sound. -/
theorem Sound.run (hs : s.Sound p) (calls : List (PrintCall κ)) :
    (s.run calls).1 = calls.map p.answer ∧ (s.run calls).2.Sound p := by
  induction calls generalizing s with
  | nil => exact ⟨rfl, hs⟩
  | cons call calls ih =>
    obtain ⟨hfirst, hnext⟩ := hs.answer call
    obtain ⟨hothers, hlast⟩ := ih hnext
    refine ⟨?_, hlast⟩
    show (s.answer call).1 :: ((s.answer call).2.run calls).1 = _
    rw [hfirst, hothers, List.map_cons]

/-- **Kept formulas never show.** However many calls a session answers, with whatever designs and
data, each answer is the one that a session just started gives, pages, reports and tallies alike;
and that is the answer of a printer which keeps nothing. All the while, whatever the session keeps
for a text is what reading the text gives, be it a formula or the reason why it is none. -/
theorem run_answers (p : Printer κ) (calls : List (PrintCall κ)) :
    ((start p).run calls).1 = calls.map (fun call => ((start p).answer call).1) ∧
    ((start p).run calls).1 = calls.map p.answer ∧
    ∀ text formula, ((start p).run calls).2.cache.get? text = some formula →
      formula = Expr.parse text := by
  obtain ⟨hanswers, hsound⟩ := (sound_start p).run calls
  have hfresh : ∀ call, ((start p).answer call).1 = p.answer call := fun call =>
    ((sound_start p).answer call).1
  refine ⟨?_, hanswers, hsound.cache⟩
  rw [hanswers]
  exact List.map_congr_left fun call _ => (hfresh call).symm

end PrintSession

end BandedReport
