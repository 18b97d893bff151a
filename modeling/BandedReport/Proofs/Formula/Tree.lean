import BandedReport.Formula.Validation

/-!
# Conditions on trees

What a formula has to satisfy as a tree, said without tokens: which names it reads, which calls it
makes, and where its stars stand. Each condition comes with the function of the library that
decides it.
-/

namespace BandedReport.Formula

namespace Expr

/-! ## §1 Induction -/

/-- Induction over trees: for a call the statement may be used for each of its arguments. -/
@[elab_as_elim, induction_eliminator]
theorem induction {motive : Expr → Prop}
    (literal : ∀ value, motive (.literal value))
    (reference : ∀ name, motive (.reference name))
    (wildcard : motive .wildcard)
    (negate : ∀ operand, motive operand → motive (.negate operand))
    (binary : ∀ op left right, motive left → motive right → motive (.binary op left right))
    (call : ∀ f args, (∀ a ∈ args, motive a) → motive (.call f args)) :
    ∀ e, motive e
  | .literal value => literal value
  | .reference name => reference name
  | .wildcard => wildcard
  | .negate e => negate e (induction literal reference wildcard negate binary call e)
  | .binary op l r =>
    binary op l r (induction literal reference wildcard negate binary call l)
      (induction literal reference wildcard negate binary call r)
  | .call f args =>
    call f args fun a _ => induction literal reference wildcard negate binary call a

/-! ## §2 Names -/

theorem mem_pushNew {names : List String} {n name : String} :
    n ∈ pushNew names name ↔ n ∈ names ∨ n = name := by
  unfold pushNew
  split
  · rename_i h
    rw [List.contains_iff_mem] at h
    constructor
    · exact .inl
    · rintro (hn | rfl)
      · exact hn
      · exact h
  · rw [List.mem_append, List.mem_singleton]

/-- Dropping the names that fail a test commutes with adding a name. -/
theorem filter_pushNew (p : String → Bool) (names : List String) (name : String) :
    (pushNew names name).filter p =
      if p name then pushNew (names.filter p) name else names.filter p := by
  by_cases hp : p name
  · by_cases hmem : name ∈ names
    · simp [pushNew, hp, hmem]
    · simp [pushNew, hp, hmem, List.filter_append]
  · by_cases hmem : name ∈ names
    · simp [pushNew, hp, hmem]
    · simp [pushNew, hp, hmem, List.filter_append]

theorem addAll_eq_foldl (names : List String) (args : List Expr) :
    addReferences.addAll names args = args.foldl addReferences names := by
  induction args generalizing names with
  | nil => rfl
  | cons e es ih => exact ih _

private theorem mem_foldl_addReferences {args : List Expr} (names : List String) {n : String}
    (ih : ∀ a ∈ args, ∀ names, n ∈ addReferences names a ↔ n ∈ names ∨ n ∈ a.references) :
    n ∈ args.foldl addReferences names ↔ n ∈ names ∨ ∃ a ∈ args, n ∈ a.references := by
  induction args generalizing names with
  | nil => simp
  | cons e es ihes =>
    obtain ⟨he, hes⟩ := List.forall_mem_cons.mp ih
    rw [List.foldl_cons, ihes _ hes, he, or_assoc]
    simp

/-- The names found before stay, and those of the expression are added. -/
theorem mem_addReferences (names : List String) (e : Expr) {n : String} :
    n ∈ addReferences names e ↔ n ∈ names ∨ n ∈ e.references := by
  induction e generalizing names with
  | literal | wildcard => simp [references, addReferences]
  | reference name => simp [references, addReferences, mem_pushNew]
  | negate e ih => exact ih names
  | binary op l r ihl ihr =>
    simp only [references, addReferences]
    rw [ihr, ihl, ihr (addReferences [] l), or_assoc]
    rfl
  | call f args ih =>
    have hargs := fun names => mem_foldl_addReferences names ih
    simp only [references, addReferences, addAll_eq_foldl, hargs, List.not_mem_nil, false_or]

theorem mem_references_reference {name n : String} :
    n ∈ (reference name).references ↔ n = name := by
  simp [references, addReferences, mem_pushNew]

theorem mem_references_binary {op : Operator} {l r : Expr} {n : String} :
    n ∈ (binary op l r).references ↔ n ∈ l.references ∨ n ∈ r.references := by
  rw [references, addReferences]
  exact mem_addReferences _ _

theorem mem_references_call {f : String} {args : List Expr} {n : String} :
    n ∈ (call f args).references ↔ ∃ a ∈ args, n ∈ a.references := by
  show n ∈ addReferences.addAll [] args ↔ _
  rw [addAll_eq_foldl, mem_foldl_addReferences _ fun _ _ _ => mem_addReferences _ _]
  simp only [List.not_mem_nil, false_or]

/-! ## §3 Calls -/

/-- The calls in an expression, nested ones included: the function and the number of arguments. -/
def calls : Expr → List (String × Nat)
  | literal _ | reference _ | wildcard => []
  | negate e => e.calls
  | binary _ l r => l.calls ++ r.calls
  | call f args => (f, args.length) :: allCalls args
where
  /-- The calls in a list of arguments. -/
  allCalls : List Expr → List (String × Nat)
    | [] => []
    | e :: es => e.calls ++ allCalls es

theorem allCalls_eq_flatMap (args : List Expr) : calls.allCalls args = args.flatMap calls := by
  induction args with
  | nil => rfl
  | cons e es ih => rw [calls.allCalls, ih, List.flatMap_cons]

/-- Every call names a function of the registry and gives it a number of arguments it accepts. -/
def CallsAccepted (r : Registry) (e : Expr) : Prop :=
  ∀ c ∈ e.calls, ∃ f, r.get? c.1 = some f ∧ f.arity.accepts c.2 = true

variable {r : Registry}

theorem callsAccepted_negate {e : Expr} :
    (negate e).CallsAccepted r ↔ e.CallsAccepted r := Iff.rfl

theorem callsAccepted_binary {op : Operator} {l r' : Expr} :
    (binary op l r').CallsAccepted r ↔ l.CallsAccepted r ∧ r'.CallsAccepted r :=
  List.forall_mem_append

theorem callsAccepted_call {f : String} {args : List Expr} :
    (call f args).CallsAccepted r ↔
      (∃ d, r.get? f = some d ∧ d.arity.accepts args.length = true) ∧
        ∀ a ∈ args, a.CallsAccepted r := by
  simp only [CallsAccepted, calls, allCalls_eq_flatMap, List.forall_mem_cons, List.mem_flatMap]
  refine and_congr_right fun _ => ?_
  constructor
  · exact fun h a ha c hc => h c ⟨a, ha, hc⟩
  · rintro h c ⟨a, ha, hc⟩
    exact h a ha c hc

private theorem checkAll_eq_ok_iff {args : List Expr} :
    checkCalls.checkAll r args = .ok () ↔ ∀ a ∈ args, checkCalls r a = .ok () := by
  induction args with
  | nil => simp [checkCalls.checkAll]
  | cons e es ih =>
    rw [checkCalls.checkAll, List.forall_mem_cons, ← ih]
    cases checkCalls r e <;> simp [bind, Except.bind]

/-- The check of calls decides whether all of them are accepted. -/
theorem checkCalls_eq_ok_iff {e : Expr} : checkCalls r e = .ok () ↔ e.CallsAccepted r := by
  induction e with
  | literal | reference | wildcard => simp [checkCalls, CallsAccepted, calls]
  -- The calls of an operation are those of its operands.
  | negate e ih => rwa [callsAccepted_negate]
  | binary op left right ihl ihr =>
    rw [callsAccepted_binary, ← ihl, ← ihr, checkCalls]
    cases checkCalls r left <;> simp [bind, Except.bind]
  | call f args ih =>
    rw [callsAccepted_call, ← forall₂_congr ih, ← checkAll_eq_ok_iff, checkCalls]
    -- The function has to be known, and to accept as many arguments.
    cases r.get? f with
    | none => simp
    | some d =>
      by_cases hd : d.arity.accepts args.length = true
      · simp [hd]
      · simp [hd]

/-! ## §4 Stars -/

/-- Every star is the only argument of a call to a function that counts rows. -/
inductive StarsPlaced : Expr → Prop where
  | literal (value : Scalar) : StarsPlaced (.literal value)
  | reference (name : String) : StarsPlaced (.reference name)
  | negate {e : Expr} : StarsPlaced e → StarsPlaced (.negate e)
  | binary (op : Operator) {l r : Expr} :
      StarsPlaced l → StarsPlaced r → StarsPlaced (.binary op l r)
  | count {f : String} : f ∈ wildcardFunctions → StarsPlaced (.call f [.wildcard])
  | call (f : String) {args : List Expr} :
      (∀ a ∈ args, StarsPlaced a) → StarsPlaced (.call f args)

theorem not_starsPlaced_wildcard : ¬ wildcard.StarsPlaced := by
  rintro ⟨⟩

theorem starsPlaced_negate {e : Expr} : (negate e).StarsPlaced ↔ e.StarsPlaced :=
  ⟨fun | .negate h => h, .negate⟩

theorem starsPlaced_binary {op : Operator} {l r' : Expr} :
    (binary op l r').StarsPlaced ↔ l.StarsPlaced ∧ r'.StarsPlaced :=
  ⟨fun | .binary _ hl hr => ⟨hl, hr⟩, fun ⟨hl, hr⟩ => .binary op hl hr⟩

theorem starsPlaced_call {f : String} {args : List Expr} :
    (call f args).StarsPlaced ↔
      (args = [.wildcard] ∧ f ∈ wildcardFunctions) ∨ ∀ a ∈ args, a.StarsPlaced := by
  constructor
  · intro h
    cases h with
    | count hf => exact .inl ⟨rfl, hf⟩
    | call _ hargs => exact .inr hargs
  · rintro (⟨rfl, hf⟩ | hargs)
    · exact .count hf
    · exact .call f hargs

/-! ## §5 Parts -/

/-- `p.IsPart e`: the expression `p` is `e` or stands somewhere in it. -/
inductive IsPart (p : Expr) : Expr → Prop where
  | self : IsPart p p
  | negate {e : Expr} : IsPart p e → IsPart p (.negate e)
  | left (op : Operator) {l : Expr} (r : Expr) : IsPart p l → IsPart p (.binary op l r)
  | right (op : Operator) (l : Expr) {r : Expr} : IsPart p r → IsPart p (.binary op l r)
  | argument (f : String) {args : List Expr} {a : Expr} :
      a ∈ args → IsPart p a → IsPart p (.call f args)

theorem IsPart.callsAccepted {p e : Expr} (h : p.IsPart e) (he : e.CallsAccepted r) :
    p.CallsAccepted r := by
  induction h with
  | self => exact he
  | negate _ ih => exact ih (callsAccepted_negate.mp he)
  | left _ _ _ ih => exact ih (callsAccepted_binary.mp he).1
  | right _ _ _ ih => exact ih (callsAccepted_binary.mp he).2
  | argument _ ha _ ih => exact ih ((callsAccepted_call.mp he).2 _ ha)

/-- Stars are in their places in the calls of an expression, if they are in the expression. -/
theorem IsPart.starsPlaced_call {f : String} {args : List Expr} {e : Expr}
    (h : (call f args).IsPart e) (he : e.StarsPlaced) : (call f args).StarsPlaced := by
  induction h with
  | self => exact he
  | negate _ ih => exact ih (starsPlaced_negate.mp he)
  | left _ _ _ ih => exact ih (starsPlaced_binary.mp he).1
  | right _ _ _ ih => exact ih (starsPlaced_binary.mp he).2
  | argument _ ha hpart ih =>
    rcases Expr.starsPlaced_call.mp he with ⟨rfl, -⟩ | hargs
    · -- No call stands in a lone star.
      obtain rfl := List.mem_singleton.mp ha
      cases hpart
    · exact ih (hargs _ ha)

/-! ## §6 Arguments -/

/-- A subexpression as an argument of a call. -/
def toArgument (r : Registry) (e : Expr) : Argument := ⟨e.isWildcard, fun ctx => e.evaluate r ctx⟩

theorem arguments_eq_map (es : List Expr) : evaluate.arguments r es = es.map (toArgument r) := by
  induction es with
  | nil => rfl
  | cons e es ih => rw [evaluate.arguments, ih, List.map_cons, toArgument]

end Expr

end BandedReport.Formula
