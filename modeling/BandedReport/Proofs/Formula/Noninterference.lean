import BandedReport.Formula.Dependencies
import BandedReport.Proofs.Formula.FunctionErrors
import BandedReport.Proofs.Formula.Tree

/-!
# What a value depends on

The dependencies of an expression cover everything that its value is made from: contexts that agree
on the dependencies give the expression the same value or the same error. The analysis and the
evaluator walk over the tree in different ways. What ties them is that the analysis only adds to
what it has found, so that agreement on the dependencies of a tree is agreement on those of its
parts.

* `Dependencies.Agree` says that two contexts agree on what was found;
* `Expr.evaluate_congr` is the induction over the tree, for every registry whose functions read the
  clock only under a name that the analysis knows;
* `evaluate_of_agree` is the result for the built-in functions.
-/

namespace BandedReport.Formula

/-! ## §1 Contexts that agree -/

namespace Dependencies

/-- Two contexts agree on dependencies: on the position, on the fields of every name in braces, and
on the rows and the clock where these are used. -/
structure Agree (d : Dependencies) (ctx₁ ctx₂ : Context) : Prop where
  rowIndex : ctx₁.rowIndex = ctx₂.rowIndex
  pageNumber : ctx₁.pageNumber = ctx₂.pageNumber
  totalPages : ctx₁.totalPages = ctx₂.totalPages
  master : ∀ name ∈ d.references, ctx₁.master.get? name = ctx₂.master.get? name
  /-- A row that lacks the field and no row at all are the same here. -/
  detailRow : ∀ name ∈ d.references,
    ctx₁.detailRow.bind (·.get? name) = ctx₂.detailRow.bind (·.get? name)
  allRows : d.usesAllRows = true → ctx₁.allRows = ctx₂.allRows
  pageRows : d.usesPageRows = true → ctx₁.pageRows = ctx₂.pageRows
  now : d.usesClock = true → ctx₁.now = ctx₂.now

/-- What was found first is still there in what was found later. -/
structure Included (d d' : Dependencies) : Prop where
  references : ∀ name ∈ d.references, name ∈ d'.references
  usesAllRows : d.usesAllRows = true → d'.usesAllRows = true
  usesPageRows : d.usesPageRows = true → d'.usesPageRows = true
  usesClock : d.usesClock = true → d'.usesClock = true

variable {d d' d'' : Dependencies} {ctx₁ ctx₂ : Context} {r : Registry}

theorem Included.refl (d : Dependencies) : d.Included d := ⟨fun _ => id, id, id, id⟩

theorem Included.trans (h : d.Included d') (h' : d'.Included d'') : d.Included d'' where
  references name hname := h'.references name (h.references name hname)
  usesAllRows hd := h'.usesAllRows (h.usesAllRows hd)
  usesPageRows hd := h'.usesPageRows (h.usesPageRows hd)
  usesClock hd := h'.usesClock (h.usesClock hd)

theorem Agree.mono (h : d'.Agree ctx₁ ctx₂) (hd : d.Included d') : d.Agree ctx₁ ctx₂ where
  rowIndex := h.rowIndex
  pageNumber := h.pageNumber
  totalPages := h.totalPages
  master name hname := h.master name (hd.references name hname)
  detailRow name hname := h.detailRow name (hd.references name hname)
  allRows huses := h.allRows (hd.usesAllRows huses)
  pageRows huses := h.pageRows (hd.usesPageRows huses)
  now huses := h.now (hd.usesClock huses)

/-- On the same row, contexts that agree still agree. -/
theorem Agree.forRow (h : d.Agree ctx₁ ctx₂) (row : Record) :
    d.Agree (ctx₁.forRow row) (ctx₂.forRow row) :=
  { h with detailRow := fun _ _ => rfl }

/-! ## §2 The analysis only adds -/

theorem included_addReference (d : Dependencies) (name : String) :
    d.Included (d.addReference name) where
  references _ hname := Expr.mem_pushNew.mpr (.inl hname)
  usesAllRows hd := by simp [addReference, hd]
  usesPageRows hd := by simp [addReference, hd]
  usesClock hd := by simp [addReference, hd]

theorem included_addFunction (d : Dependencies) (function : String) :
    d.Included (addFunction r d function) where
  references _ := id
  usesAllRows hd := by simp [addFunction, hd]
  usesPageRows hd := by simp [addFunction, hd]
  usesClock hd := by simp [addFunction, hd]

theorem visitAll_eq_foldl (d : Dependencies) (args : List Expr) :
    visit.visitAll r d args = args.foldl (visit r) d := by
  induction args generalizing d with
  | nil => rfl
  | cons e es ih => exact ih _

private theorem included_foldl_visit {args : List Expr} (d : Dependencies)
    (ih : ∀ a ∈ args, ∀ d : Dependencies, d.Included (visit r d a)) :
    d.Included (args.foldl (visit r) d) := by
  induction args generalizing d with
  | nil => exact .refl d
  | cons e es ihes =>
    obtain ⟨he, hes⟩ := List.forall_mem_cons.mp ih
    exact (he d).trans (ihes _ hes)

/-- Visiting an expression keeps what was found before. -/
theorem included_visit (d : Dependencies) (e : Expr) : d.Included (visit r d e) := by
  induction e generalizing d with
  | literal | wildcard => exact .refl d
  | reference name => exact included_addReference d name
  | negate e ih => exact ih d
  | binary op left right ihl ihr => exact (ihl d).trans (ihr _)
  | call function args ih =>
    rw [visit, visitAll_eq_foldl]
    exact (included_addFunction d function).trans (included_foldl_visit _ ih)

/-- Every argument of a list is visited at some time, and what is found by then is kept. -/
theorem exists_visit_included {args : List Expr} (d : Dependencies) {a : Expr} (ha : a ∈ args) :
    ∃ d', (visit r d' a).Included (args.foldl (visit r) d) := by
  obtain ⟨before, after, rfl⟩ := List.append_of_mem ha
  refine ⟨before.foldl (visit r) d, ?_⟩
  rw [List.foldl_append, List.foldl_cons]
  exact included_foldl_visit _ fun b _ d => included_visit d b

end Dependencies

/-! ## §3 Functions that read the clock -/

/-- A function that takes values reads nothing of the context but the clock, and that only under a
name that the analysis knows. -/
def FunctionDef.ReadsClockOnly (f : FunctionDef) : Prop :=
  ∀ run, f.body = .eager run → ∀ args (ctx₁ ctx₂ : Context),
    (f.name ∈ ["NOW", "TODAY"] → ctx₁.now = ctx₂.now) → run args ctx₁ = run args ctx₂

/-- A list of functions that read nothing of the context but the clock. -/
abbrev AllReadClockOnly (functions : List FunctionDef) : Prop :=
  ∀ f ∈ functions, f.ReadsClockOnly

theorem readsClockOnly_of_args {f : FunctionDef} {run : List Scalar → Outcome}
    (h : f.body = .eager fun args _ => run args) : f.ReadsClockOnly := by
  rintro run' hbody args ctx₁ ctx₂ -
  rw [h] at hbody
  cases hbody
  rfl

theorem readsClockOnly_of_now {f : FunctionDef} (run : DateTime → Outcome)
    (h : f.body = .eager fun _ ctx => run ctx.now) (hname : f.name ∈ ["NOW", "TODAY"]) :
    f.ReadsClockOnly := by
  intro run' hbody args ctx₁ ctx₂ hnow
  rw [h] at hbody
  cases hbody
  exact congrArg run (hnow hname)

/-- A function that selects among outcomes takes no context. -/
theorem readsClockOnly_of_select {f : FunctionDef} {select : List Outcome → Outcome}
    (h : f.body = .selective select) : f.ReadsClockOnly := by
  intro run hbody
  rw [h] at hbody
  cases hbody

theorem Aggregate.readsClockOnly : AllReadClockOnly functions := by
  intro f hf run hbody
  obtain ⟨row, -, hrow⟩ := List.mem_flatMap.mp hf
  simp only [define, List.mem_cons, List.not_mem_nil, or_false] at hrow
  rcases hrow with rfl | rfl <;> cases hbody

theorem Math.readsClockOnly : AllReadClockOnly functions := by
  simp only [AllReadClockOnly, functions, List.forall_mem_cons]
  refine ⟨?_, ?_, ?_, ?_, ?_, List.forall_mem_nil _⟩
  all_goals exact readsClockOnly_of_args rfl

theorem Text.readsClockOnly : AllReadClockOnly functions := by
  simp only [AllReadClockOnly, functions, List.forall_mem_cons]
  refine ⟨?_, ?_, ?_, ?_, ?_, ?_, ?_, ?_, ?_, List.forall_mem_nil _⟩
  all_goals exact readsClockOnly_of_args rfl

theorem Calendar.readsClockOnly : AllReadClockOnly functions := by
  simp only [AllReadClockOnly, functions, List.forall_mem_cons]
  refine ⟨?_, ?_, ?_, ?_, ?_, ?_, ?_, List.forall_mem_nil _⟩
  · exact readsClockOnly_of_now (fun now => .ok (.date now.wholeSeconds)) rfl (by decide)
  · exact readsClockOnly_of_now (fun now => .ok (.date now.startOfDay)) rfl (by decide)
  all_goals exact readsClockOnly_of_args rfl

theorem Logic.readsClockOnly : AllReadClockOnly functions := by
  simp only [AllReadClockOnly, functions, List.forall_mem_cons]
  refine ⟨?_, ?_, ?_, ?_, ?_, readsClockOnly_of_args rfl, List.forall_mem_nil _⟩
  all_goals exact readsClockOnly_of_select rfl

theorem Format.readsClockOnly : AllReadClockOnly functions := by
  simp only [AllReadClockOnly, functions, List.forall_mem_cons]
  refine ⟨?_, ?_, ?_, ?_, ?_, List.forall_mem_nil _⟩
  all_goals exact readsClockOnly_of_args rfl

theorem Finance.readsClockOnly : AllReadClockOnly functions := by
  simp only [AllReadClockOnly, functions, List.forall_mem_cons]
  refine ⟨?_, ?_, ?_, ?_, List.forall_mem_nil _⟩
  all_goals exact readsClockOnly_of_args rfl

/-- No built-in function reads more of the context than the clock. -/
theorem builtinFunctions_readClockOnly : AllReadClockOnly builtinFunctions := by
  simp only [AllReadClockOnly, builtinFunctions, List.forall_mem_append]
  exact ⟨⟨⟨⟨⟨⟨Aggregate.readsClockOnly, Math.readsClockOnly⟩, Text.readsClockOnly⟩,
    Calendar.readsClockOnly⟩, Logic.readsClockOnly⟩, Format.readsClockOnly⟩,
    Finance.readsClockOnly⟩

/-! ## §4 Evaluation -/

variable {ctx₁ ctx₂ : Context} {d : Dependencies} {r : Registry}

/-- A system variable is made from the position, or from what its name makes the analysis report. -/
theorem systemValue?_congr {name : String} (h : (d.addReference name).Agree ctx₁ ctx₂) :
    systemValue? name ctx₁ = systemValue? name ctx₂ := by
  unfold systemValue?
  split
  case h_1 | h_2 | h_3 => rw [h.now (by simp [Dependencies.addReference])]
  case h_4 => rw [h.pageNumber]
  case h_5 => rw [h.totalPages]
  case h_6 | h_7 => rw [h.rowIndex]
  case h_8 => rw [h.allRows (by simp [Dependencies.addReference])]
  case h_9 => rw [h.pageRows (by simp [Dependencies.addReference])]
  case h_10 => rfl

theorem resolve_congr {name : String} (h : (d.addReference name).Agree ctx₁ ctx₂) :
    resolve name ctx₁ = resolve name ctx₂ := by
  have hname : name ∈ (d.addReference name).references := Expr.mem_pushNew.mpr (.inr rfl)
  rw [resolve, resolve, systemValue?_congr h, Context.field?, Context.field?,
    h.detailRow name hname, h.master name hname]

/-- The rows that a function aggregates over are among what its name makes the analysis report. -/
theorem rowsOf_congr {function : String} {scope : RowScope}
    (hscope : Dependencies.aggregateScope? r function = some scope)
    (h : (Dependencies.addFunction r d function).Agree ctx₁ ctx₂) :
    ctx₁.rowsOf scope = ctx₂.rowsOf scope := by
  cases scope with
  | all => exact h.allRows (by simp [Dependencies.addFunction, hscope])
  | page => exact h.pageRows (by simp [Dependencies.addFunction, hscope])

/-- On every row, contexts with equal values of an argument give its aggregate the same value. -/
theorem Argument.onRow_congr {arg : Argument} {row : Record}
    (h : arg.value (ctx₁.forRow row) = arg.value (ctx₂.forRow row)) :
    arg.onRow ctx₁ row = arg.onRow ctx₂ row := by
  rw [onRow, onRow, h]

/-- Contexts that give the arguments of a call equal values, also on every row, give the body of
its function the same value, if they agree on the clock and on the rows where the function uses
these. -/
theorem FunctionDef.ReadsClockOnly.runBody_congr {f : FunctionDef} {args : List Argument}
    (hf : f.ReadsClockOnly) (hnow : f.name ∈ ["NOW", "TODAY"] → ctx₁.now = ctx₂.now)
    (hrows : ∀ scope reduce, f.body = .aggregate scope reduce →
      ctx₁.rowsOf scope = ctx₂.rowsOf scope)
    (hvalue : ∀ a ∈ args, a.value ctx₁ = a.value ctx₂)
    (hrow : ∀ a ∈ args, ∀ row, a.value (ctx₁.forRow row) = a.value (ctx₂.forRow row)) :
    f.runBody args ctx₁ = f.runBody args ctx₂ := by
  rw [runBody, runBody]
  -- How a function reads its arguments depends on its body.
  cases hbody : f.body with
  | selective select => exact congrArg select (List.map_congr_left hvalue)
  | eager run =>
    have hrun : ∀ values, run values ctx₁ = run values ctx₂ := fun values =>
      hf run hbody values ctx₁ ctx₂ hnow
    cases args.findIdx? (·.isWildcard) with
    | some index => rfl
    | none => simp only [mapM_congr hvalue, hrun]
  | aggregate scope reduce =>
    dsimp only
    rw [hrows scope reduce hbody]
    -- Without an argument, the one that stands in for it has the same value everywhere.
    cases args with
    | nil => rfl
    | cons a rest =>
      have ha := hrow a List.mem_cons_self
      rw [List.head?_cons, Option.getD_some, mapM_congr fun row _ => Argument.onRow_congr (ha row)]

/-- So is a call in such contexts. -/
theorem Expr.evaluate_call_congr {function : String} {args : List Expr}
    (hr : ∀ name f, r.get? name = some f → f.ReadsClockOnly)
    (hnow : function ∈ ["NOW", "TODAY"] → ctx₁.now = ctx₂.now)
    (hrows : ∀ scope, Dependencies.aggregateScope? r function = some scope →
      ctx₁.rowsOf scope = ctx₂.rowsOf scope)
    (hvalue : ∀ a ∈ args, a.evaluate r ctx₁ = a.evaluate r ctx₂)
    (hrow : ∀ a ∈ args, ∀ row, a.evaluate r (ctx₁.forRow row) = a.evaluate r (ctx₂.forRow row)) :
    (call function args).evaluate r ctx₁ = (call function args).evaluate r ctx₂ := by
  rw [evaluate, evaluate, arguments_eq_map, Registry.call, Registry.call]
  cases hget : r.get? function with
  | none => rfl
  | some f =>
    -- The function is found in both contexts, and it reads the same in them.
    dsimp only
    rw [(hr function f hget).runBody_congr]
    · rwa [Registry.name_of_get? hget]
    · intro scope reduce hbody
      refine hrows scope ?_
      rw [Dependencies.aggregateScope?, hget, Option.map_some, hbody]
    · rw [List.forall_mem_map]
      exact hvalue
    · rw [List.forall_mem_map]
      exact hrow

/-- Evaluation does not tell related contexts apart, if they are still related on every row, and if
the names that the expression reads and the rows that it aggregates over are the same in both. -/
theorem Expr.evaluate_eq_of_related {R : Context → Context → Prop}
    (hr : ∀ name f, r.get? name = some f → f.ReadsClockOnly)
    (hrow : ∀ {ctx₁ ctx₂}, R ctx₁ ctx₂ → ∀ row, R (ctx₁.forRow row) (ctx₂.forRow row))
    (hnow : ∀ {ctx₁ ctx₂}, R ctx₁ ctx₂ → ctx₁.now = ctx₂.now) {e : Expr}
    (hnames : ∀ name ∈ e.references, ∀ {ctx₁ ctx₂}, R ctx₁ ctx₂ →
      resolve name ctx₁ = resolve name ctx₂)
    (hscopes : ∀ c ∈ e.calls, ∀ scope, Dependencies.aggregateScope? r c.1 = some scope →
      ∀ {ctx₁ ctx₂}, R ctx₁ ctx₂ → ctx₁.rowsOf scope = ctx₂.rowsOf scope)
    (h : R ctx₁ ctx₂) : e.evaluate r ctx₁ = e.evaluate r ctx₂ := by
  -- The relation holds on all the rows as well, so it is general in the induction.
  induction e generalizing ctx₁ ctx₂ with
  | literal | wildcard => rfl
  | reference name => exact hnames name (mem_references_reference.mpr rfl) h
  | negate e ih => rw [evaluate, evaluate, ih hnames hscopes h]
  | binary op left right ihl ihr =>
    have hleft : left.evaluate r ctx₁ = left.evaluate r ctx₂ :=
      ihl (fun name hname => hnames name (mem_references_binary.mpr (.inl hname)))
        (fun c hc => hscopes c (List.mem_append_left _ hc)) h
    have hright : right.evaluate r ctx₁ = right.evaluate r ctx₂ :=
      ihr (fun name hname => hnames name (mem_references_binary.mpr (.inr hname)))
        (fun c hc => hscopes c (List.mem_append_right _ hc)) h
    rw [evaluate, evaluate, hleft, hright]
  | call function args ih =>
    -- The call itself and the calls of its arguments are those of the tree.
    have hcalls : (call function args).calls = (function, args.length) :: args.flatMap calls := by
      rw [calls, allCalls_eq_flatMap]
    rw [hcalls] at hscopes
    have hargs : ∀ e ∈ args, ∀ {ctx₁ ctx₂ : Context}, R ctx₁ ctx₂ →
        e.evaluate r ctx₁ = e.evaluate r ctx₂ := fun e he _ _ h =>
      ih e he (fun name hname => hnames name (mem_references_call.mpr ⟨e, he, hname⟩))
        (fun c hc => hscopes c (List.mem_cons_of_mem _ (List.mem_flatMap.mpr ⟨e, he, hc⟩))) h
    exact evaluate_call_congr hr (fun _ => hnow h)
      (fun scope hscope => hscopes _ List.mem_cons_self scope hscope h)
      (fun e he => hargs e he h) fun e he row => hargs e he (hrow h row)

/-- **Agreement on dependencies is agreement on the value.** Contexts that agree on the
dependencies of an expression, added to any found before, give it the same value or error. -/
theorem Expr.evaluate_congr (hr : ∀ name f, r.get? name = some f → f.ReadsClockOnly) {e : Expr}
    (h : (Dependencies.visit r d e).Agree ctx₁ ctx₂) :
    e.evaluate r ctx₁ = e.evaluate r ctx₂ := by
  induction e generalizing d ctx₁ ctx₂ with
  | literal | wildcard => rfl
  | reference name => exact resolve_congr h
  | negate e ih => rw [evaluate, evaluate, ih h]
  | binary op left right ihl ihr =>
    -- What was found in the left operand is kept while the right one is visited.
    have hleft := h.mono (Dependencies.included_visit _ right)
    rw [evaluate, evaluate, ihl hleft, ihr h]
  | call function args ih =>
    -- The arguments are visited behind the function, and nothing found is lost.
    rw [Dependencies.visit, Dependencies.visitAll_eq_foldl] at h
    have hfunction := h.mono (Dependencies.included_foldl_visit _ fun b _ d =>
      Dependencies.included_visit d b)
    have hargs : ∀ a ∈ args, ∃ d', (Dependencies.visit r d' a).Agree ctx₁ ctx₂ := by
      intro a ha
      obtain ⟨d', hd'⟩ := Dependencies.exists_visit_included _ ha
      exact ⟨d', h.mono hd'⟩
    refine evaluate_call_congr hr ?_ (fun scope hscope => rowsOf_congr hscope hfunction) ?_ ?_
    · -- The clock is read by the two functions that were found to read it.
      exact fun hname => hfunction.now (by simp [Dependencies.addFunction, hname])
    · intro a ha
      obtain ⟨d', hd'⟩ := hargs a ha
      exact ih a ha hd'
    · intro a ha row
      obtain ⟨d', hd'⟩ := hargs a ha
      exact ih a ha (hd'.forRow row)

/-! ## §5 The built-in functions -/

theorem builtin_readsClockOnly {name : String} {f : FunctionDef}
    (hget : Registry.builtin.get? name = some f) : f.ReadsClockOnly :=
  builtinFunctions_readClockOnly f (Registry.mem_of_get?_ofList hget)

/-- **The dependencies of an expression cover all that its value depends on.** Contexts that agree
on them give the expression the same value or the same error. In particular an expression that does
not use the rows of the page has the same value whatever these rows are, and so before the pages
are made. -/
theorem evaluate_of_agree (e : Expr) :
    (∀ ctx₁ ctx₂, (Dependencies.ofExpr .builtin e).Agree ctx₁ ctx₂ →
      e.evaluate .builtin ctx₁ = e.evaluate .builtin ctx₂) ∧
    ((Dependencies.ofExpr .builtin e).usesPageRows = false → ∀ (ctx : Context) pageRows,
      e.evaluate .builtin { ctx with pageRows } = e.evaluate .builtin ctx) := by
  refine ⟨fun ctx₁ ctx₂ => Expr.evaluate_congr fun _ _ => builtin_readsClockOnly, ?_⟩
  intro hpage ctx pageRows
  -- The contexts differ in the rows of the page alone.
  have hagree : (Dependencies.ofExpr .builtin e).Agree { ctx with pageRows } ctx :=
    ⟨rfl, rfl, rfl, fun _ _ => rfl, fun _ _ => rfl, fun _ => rfl,
      fun huses => absurd (huses.symm.trans hpage) (by decide), fun _ => rfl⟩
  exact Expr.evaluate_congr (fun _ _ => builtin_readsClockOnly) hagree

/-- A total over all rows, scaled by a field of the master record. -/
private def scaledTotal : Expr :=
  .binary .multiply (.call "SUM" [.reference "price"]) (.reference "rate")

private theorem scaledTotal_dependencies :
    Dependencies.ofExpr .builtin scaledTotal =
      ⟨["price", "rate"], ["SUM"], true, false, false⟩ := by
  decide +kernel

/-- Before the pages are made, with a remark in the master record. -/
private def unpagedContext : Context :=
  { master := .ofList [("rate", .number 0.2), ("remark", .text "draft")], detailRow := none
    allRows := [.ofList [("price", .number 3.0)], .ofList [("price", .number 4.5)]]
    pageRows := [], rowIndex := 0, pageNumber := 1, totalPages := 1
    now := ⟨⟨2022, 6, 15, by decide, by decide⟩,
      ⟨14, 30, 5, 0, by decide, by decide, by decide, by decide⟩⟩ }

/-- On a page, on another day, with a row that has none of the fields and another remark. -/
private def pagedContext : Context :=
  { unpagedContext with
    master := .ofList [("rate", .number 0.2), ("remark", .text "final")]
    detailRow := some (.ofList [("remark", .text "row")])
    pageRows := [.ofList [("price", .number 3.0)]]
    now := ⟨⟨2025, 1, 1, by decide, by decide⟩, .midnight⟩ }

private theorem scaledTotal_agree :
    (Dependencies.ofExpr .builtin scaledTotal).Agree unpagedContext pagedContext := by
  rw [scaledTotal_dependencies]
  refine ⟨rfl, rfl, rfl, ?_, ?_, fun _ => rfl, nofun, nofun⟩
  · simp only [List.forall_mem_cons]
    exact ⟨rfl, rfl, nofun⟩
  · simp only [List.forall_mem_cons]
    exact ⟨rfl, rfl, nofun⟩

/-- A remark, the rows of the page and the time do not show in a total over all rows. -/
theorem evaluate_of_agree_scaledTotal :
    ((Dependencies.ofExpr .builtin scaledTotal).Agree unpagedContext pagedContext ∧
      scaledTotal.evaluate .builtin unpagedContext = scaledTotal.evaluate .builtin pagedContext) ∧
    ((Dependencies.ofExpr .builtin scaledTotal).usesPageRows = false ∧
      scaledTotal.evaluate .builtin { pagedContext with pageRows := [] } =
        scaledTotal.evaluate .builtin pagedContext) := by
  have hpage : (Dependencies.ofExpr .builtin scaledTotal).usesPageRows = false := by
    rw [scaledTotal_dependencies]
  exact ⟨⟨scaledTotal_agree, (evaluate_of_agree scaledTotal).1 _ _ scaledTotal_agree⟩,
    hpage, (evaluate_of_agree scaledTotal).2 hpage pagedContext []⟩

end BandedReport.Formula
