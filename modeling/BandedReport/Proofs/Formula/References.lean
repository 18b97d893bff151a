import BandedReport.Formula.Dependencies
import BandedReport.Proofs.Formula.Validity
import BandedReport.Proofs.Sorting

/-!
# Three views of the names in a formula

The names that a formula reads are collected three times: from its tree, for the dependencies of a
design, and from its tokens, where the unknown ones are reported. Every one of these keeps its own
list and leaves out what it has already found. They agree, since each passes over the names in the
order in which they stand in the text.

* `Expr.names` are the names from left to right, repetitions included;
* `Expr.references_eq`, `Expr.calledFunctions_eq` say that the lists of a tree are these names, and
  the called functions, without repetitions;
* `Derives.namesInBraces_eq`: the tokens hold the names of the tree in the same order;
* `variables_agree` is the result.
-/

namespace BandedReport.Formula

/-! ## §1 The names of a tree -/

namespace Expr

/-- The names in braces from left to right, each as often as it occurs. -/
def names : Expr → List String
  | literal _ | wildcard => []
  | reference name => [name]
  | negate e => e.names
  | binary _ l r => l.names ++ r.names
  | call _ args => allNames args
where
  /-- The names in a list of arguments. -/
  allNames : List Expr → List String
    | [] => []
    | e :: es => e.names ++ allNames es

theorem allNames_eq_flatMap (args : List Expr) : names.allNames args = args.flatMap names := by
  induction args with
  | nil => rfl
  | cons e es ih => rw [names.allNames, ih, List.flatMap_cons]

/-- To collect the names of a tree is to append them one after the other, unless they are known. -/
theorem addReferences_eq_foldl (found : List String) (e : Expr) :
    addReferences found e = e.names.foldl pushNew found := by
  induction e generalizing found with
  | literal | wildcard | reference => rfl
  | negate e ih => exact ih found
  | binary op l r ihl ihr => rw [addReferences, names, List.foldl_append, ihl, ihr]
  | call f args ih =>
    -- The arguments are visited one after the other, each over its own names.
    rw [addReferences, names, addAll_eq_foldl, allNames_eq_flatMap, List.foldl_flatMap]
    exact List.foldl_ext _ _ _ fun found a ha => ih a ha found

theorem addAllFunctions_eq_foldl (found : List String) (args : List Expr) :
    addFunctions.addAll found args = args.foldl addFunctions found := by
  induction args generalizing found with
  | nil => rfl
  | cons e es ih => exact ih _

theorem addFunctions_eq_foldl (found : List String) (e : Expr) :
    addFunctions found e = (e.calls.map Prod.fst).foldl pushNew found := by
  induction e generalizing found with
  | literal | wildcard | reference => rfl
  | negate e ih => exact ih found
  | binary op l r ihl ihr =>
    rw [addFunctions, calls, List.map_append, List.foldl_append, ihl, ihr]
  | call f args ih =>
    rw [addFunctions, calls, addAllFunctions_eq_foldl, allCalls_eq_flatMap, List.map_cons,
      List.foldl_cons, List.map_flatMap, List.foldl_flatMap]
    exact List.foldl_ext _ _ _ fun found a ha => ih a ha found

private theorem foldl_pushNew (l : List String) : l.foldl pushNew [] = l.eraseDups := by
  have hnew : l.foldl pushNew [] = [] ++ (l.removeAll []).eraseDups := foldl_appendNew [] l
  rwa [List.removeAll_nil] at hnew

/-- The names that a tree reads are the names in it, each once, where it first stands. -/
theorem references_eq (e : Expr) : e.references = e.names.eraseDups := by
  rw [references, addReferences_eq_foldl, foldl_pushNew]

theorem calledFunctions_eq (e : Expr) :
    e.calledFunctions = (e.calls.map Prod.fst).eraseDups := by
  rw [calledFunctions, addFunctions_eq_foldl, foldl_pushNew]

end Expr

/-! ## §2 The names of the dependencies -/

namespace Dependencies

variable (r : Registry)

/-- Visiting arguments collects from each what visiting it alone collects. -/
private theorem visitAll_collects {field : Dependencies → List String}
    {add : List String → Expr → List String} {args : List Expr}
    (h : ∀ a ∈ args, ∀ d, field (visit r d a) = add (field d) a) (d : Dependencies) :
    field (visit.visitAll r d args) = args.foldl add (field d) := by
  induction args generalizing d with
  | nil => rfl
  | cons e es ih =>
    obtain ⟨he, hes⟩ := List.forall_mem_cons.mp h
    rw [visit.visitAll, ih hes, List.foldl_cons, he]

theorem references_visit (d : Dependencies) (e : Expr) :
    (visit r d e).references = e.addReferences d.references := by
  induction e generalizing d with
  | literal | wildcard | reference => rfl
  | negate e ih => exact ih d
  | binary op left right ihl ihr => rw [visit, ihr, ihl, Expr.addReferences]
  | call f args ih =>
    rw [visit, visitAll_collects r ih, Expr.addReferences, Expr.addAll_eq_foldl]
    rfl

theorem functions_visit (d : Dependencies) (e : Expr) :
    (visit r d e).functions = e.addFunctions d.functions := by
  induction e generalizing d with
  | literal | wildcard | reference => rfl
  | negate e ih => exact ih d
  | binary op left right ihl ihr => rw [visit, ihr, ihl, Expr.addFunctions]
  | call f args ih =>
    rw [visit, visitAll_collects r ih, Expr.addFunctions, Expr.addAllFunctions_eq_foldl]
    rfl

end Dependencies

/-! ## §3 The names in the tokens -/

/-- The name in braces that a token is, if it is one. -/
def Token.inBraces? : Token → Option String
  | .reference word => some word
  | _ => none

/-- The names in braces of a token list, from left to right. -/
def namesInBraces (tokens : List Placed) : List String := (words tokens).filterMap Token.inBraces?

theorem namesInBraces_cons (t : Token) (i : Nat) (rest : List Placed) :
    namesInBraces (⟨t, i⟩ :: rest) = t.inBraces?.toList ++ namesInBraces rest := by
  rw [namesInBraces, words_cons, List.filterMap_cons]
  cases t.inBraces? <;> rfl

theorem namesInBraces_append (tokens others : List Placed) :
    namesInBraces (tokens ++ others) = namesInBraces tokens ++ namesInBraces others := by
  rw [namesInBraces, words_append, List.filterMap_append]
  rfl

/-- An operator is no name. -/
theorem inBraces?_operator {t : Token} {op : Operator}
    (hop : productOperator? t = some op ∨ sumOperator? t = some op) : t.inBraces? = none := by
  rw [productOperator?_eq_some_iff, sumOperator?_eq_some_iff] at hop
  rcases hop with (⟨rfl, -⟩ | ⟨rfl, -⟩) | (⟨rfl, -⟩ | ⟨rfl, -⟩) <;> rfl

/-- The tokens of a phrase hold the names of its trees, in the same order. -/
theorem Derives.namesInBraces_eq {tokens : List Placed} {p : Phrase} (h : Derives tokens p) :
    namesInBraces tokens = p.trees.flatMap Expr.names := by
  -- Token by token the names in braces are those of the leaves, from left to right.
  induction h with
  | number | text | reference | emptyCall | wildcard => rfl
  | @call f i j k args es _ ih =>
    -- The name of a function is not in braces, and its parentheses are not names.
    rw [namesInBraces_cons, namesInBraces_cons, namesInBraces_append, ih, Phrase.trees,
      Phrase.trees, List.flatMap_singleton, Expr.names, Expr.allNames_eq_flatMap]
    exact List.append_nil _
  | parens i j _ ih =>
    rw [namesInBraces_cons, namesInBraces_append, ih]
    exact List.append_nil _
  | negate i _ ih =>
    rw [namesInBraces_cons, ih]
    rfl
  | factor _ ih | term _ ih | argument _ ih | lastArgument _ ih => exact ih
  | @product i t op left right l e hop _ _ ihl ihr =>
    -- The operator stands between the names of its operands and has none.
    rw [namesInBraces_append, namesInBraces_cons, ihl, ihr, inBraces?_operator (.inl hop)]
    simp [Phrase.trees, Expr.names]
  | @sum i t op left right l e hop _ _ ihl ihr =>
    rw [namesInBraces_append, namesInBraces_cons, ihl, ihr, inBraces?_operator (.inr hop)]
    simp [Phrase.trees, Expr.names]
  | moreArguments i _ _ ihfirst ihothers =>
    rw [namesInBraces_append, namesInBraces_cons, ihfirst, ihothers]
    simp [Phrase.trees, Token.inBraces?]

/-! ## §4 The views together -/

/-- **The views of the names in a formula agree.** For a formula with a tree, the tokens hold the
names of the tree in the same order. The check of variables passes if every name that the tree
reads is known; otherwise it reports the unknown ones, each once, in the order in which the tree
lists them; and once the argument slots and the operators have passed, its verdict is that of the
quick check. The list of a tree, whether from a text or not, are its names from left to right, each
where it first stands; so are the called functions; and the dependencies list the same. -/
theorem variables_agree (r : Registry) :
    (∀ (declared : List String) (formula : String) (e : Expr), Expr.parse formula = .ok e →
      let unknown := e.references.filter (!isKnown declared ·)
      ∃ tokens, Token.scan (trimChars formula.toList) = .ok tokens ∧
        namesInBraces tokens = e.names ∧
        ((∀ name ∈ e.references, isKnown declared name) →
          checkVariables declared tokens = .ok ()) ∧
        ((∃ name ∈ e.references, ¬isKnown declared name) →
          checkVariables declared tokens = .error (.unknownVariables unknown) ∧ unknown.Nodup) ∧
        (checkArguments r tokens = .ok () → checkOperators tokens = .ok () →
          quickCheck r declared formula = checkVariables declared tokens)) ∧
    ∀ e : Expr,
      e.references = e.names.eraseDups ∧
      e.calledFunctions = (e.calls.map Prod.fst).eraseDups ∧
      (Dependencies.ofExpr r e).references = e.references ∧
      (Dependencies.ofExpr r e).functions = e.calledFunctions := by
  constructor
  · intro declared formula e hparse unknown
    obtain ⟨hchars, tokens, hscan, hderives⟩ := parse_eq_ok_iff.mp hparse
    -- The names in braces are those of the tree, each as often as it occurs.
    have hnames : namesInBraces tokens = e.names := by
      rw [hderives.namesInBraces_eq, Phrase.trees, List.flatMap_singleton]
    -- The unknown ones are reported once.
    have hnodup : unknown.Nodup := by
      have hreferences : e.references.Nodup := by
        rw [e.references_eq]
        exact nodup_eraseDups _
      exact hreferences.filter _
    refine ⟨tokens, hscan, hnames, hderives.checkVariables_eq_ok_iff.mpr, fun hunknown => ?_,
      fun harguments _ => ?_⟩
    · have hsome : unknown ≠ [] := by
        obtain ⟨name, hname, hisUnknown⟩ := hunknown
        exact List.ne_nil_of_mem (List.mem_filter.mpr ⟨hname, by simpa using hisUnknown⟩)
      exact ⟨(hderives.checkVariables_eq declared).trans (if_neg hsome), hnodup⟩
    · -- Arguments and operators are in order, so the variables are all that is left to check.
      rw [hderives.quickCheck_eq hchars hscan, harguments]
      rfl
  · -- The two traversals of the tree add a name when they first see it.
    exact fun e => ⟨e.references_eq, e.calledFunctions_eq, Dependencies.references_visit r _ e,
      Dependencies.functions_visit r _ e⟩

end BandedReport.Formula
