import BandedReport.Proofs.Formula.Slots

/-!
# Operators and variables of a derived formula

Every operator of a derived formula has an operand on either side, so the check of operators finds
no fault. The check of variables collects the unknown names of the tree, in their order in the
text.
-/

namespace BandedReport.Formula

/-! ## §1 One operator between its neighbours -/

variable {previous : Option Placed} {rest : List Placed} {i : Nat}

/-- A sign in front of an operand. -/
theorem checkOperator_sign {next : Option Token} (h : endsArgument next = false) :
    checkOperator previous .minus i next = .ok () := by
  simp [checkOperator, h]

/-- An operator between two operands. -/
theorem checkOperator_between {s : Symbol} {last : Placed} {next : Option Token}
    (hlast : endsOperand last.token = true) (hnext : endsArgument next = false) :
    checkOperator (some last) s i next = .ok () := by
  obtain ⟨token, start⟩ := last
  cases token with
  | symbol t =>
    cases t <;> simp_all [endsOperand, checkOperator, Symbol.isOperator]
  | number | text | name | reference => simp [checkOperator, hnext]

/-- A name, a literal or a reference is passed over. -/
theorem checkOperatorsFrom_word (t : Token) (h : ∀ s, t ≠ .symbol s) :
    checkOperatorsFrom previous (⟨t, i⟩ :: rest) = checkOperatorsFrom (some ⟨t, i⟩) rest := by
  rw [checkOperatorsFrom]
  exact h

/-- So is a symbol that is no operator. -/
theorem checkOperatorsFrom_symbol (s : Symbol) (h : s.isOperator = false) :
    checkOperatorsFrom previous (⟨.symbol s, i⟩ :: rest) =
      checkOperatorsFrom (some ⟨.symbol s, i⟩) rest := by
  rw [checkOperatorsFrom]
  simp [h]

theorem checkOperatorsFrom_minus (h : endsArgument (nextToken rest) = false) :
    checkOperatorsFrom previous (⟨.symbol .minus, i⟩ :: rest) =
      checkOperatorsFrom (some ⟨.symbol .minus, i⟩) rest := by
  rw [checkOperatorsFrom]
  simp [checkOperator_sign h, Symbol.isOperator]

theorem checkOperatorsFrom_operator {t : Token} {op : Operator} {last : Placed}
    (hop : productOperator? t = some op ∨ sumOperator? t = some op)
    (hlast : endsOperand last.token = true) (hnext : endsArgument (nextToken rest) = false) :
    checkOperatorsFrom (some last) (⟨t, i⟩ :: rest) = checkOperatorsFrom (some ⟨t, i⟩) rest := by
  rw [productOperator?_eq_some_iff, sumOperator?_eq_some_iff] at hop
  rcases hop with (⟨rfl, -⟩ | ⟨rfl, -⟩) | (⟨rfl, -⟩ | ⟨rfl, -⟩) <;>
    (rw [checkOperatorsFrom]; simp [checkOperator_between hlast hnext])

/-- A star that fills a slot is no operator. -/
theorem checkOperatorsFrom_wildcard {last : Placed} (hlast : startsArgument last.token = true)
    (hend : atArgumentEnd rest = true) :
    checkOperatorsFrom (some last) (⟨.symbol .star, i⟩ :: rest) =
      checkOperatorsFrom (some ⟨.symbol .star, i⟩) rest := by
  have hnext : endsArgument (nextToken rest) = true ∧ (nextToken rest).isSome := by
    rw [atArgumentEnd.eq_def] at hend
    split at hend
    · exact ⟨rfl, rfl⟩
    · exact ⟨rfl, rfl⟩
    · cases hend
  rw [checkOperatorsFrom]
  simp [isWildcardBetween, hlast, hnext]

/-! ## §2 The operators of a phrase -/

/-- The check of operators runs through a phrase without finding a fault. -/
def OperatorsOver (tokens : List Placed) : Phrase → Prop
  | .factor _ | .term _ | .expression _ => ∀ previous rest V,
      (∀ last : Placed, endsOperand last.token = true → checkOperatorsFrom (some last) rest = V) →
      checkOperatorsFrom previous (tokens ++ rest) = V
  | .argument _ | .arguments _ => ∀ (before : Placed) rest V,
      startsArgument (some before.token) = true → atArgumentEnd rest = true →
      (∀ last, checkOperatorsFrom (some last) rest = V) →
      checkOperatorsFrom (some before) (tokens ++ rest) = V

/-- An operator stands between its operands. -/
theorem OperatorsOver.operation {left right : List Placed} {l e : Expr} {t : Token}
    {op : Operator} (i : Nat) (hop : productOperator? t = some op ∨ sumOperator? t = some op)
    (hright : ∀ rest, endsArgument (nextToken (right ++ rest)) = false)
    (ihl : OperatorsOver left (.expression l)) (ihr : OperatorsOver right (.expression e)) :
    OperatorsOver (left ++ ⟨t, i⟩ :: right) (.expression (.binary op l e)) := by
  intro previous rest V hrest
  rw [List.append_assoc, List.cons_append]
  refine ihl _ _ V fun last hlast => ?_
  rw [checkOperatorsFrom_operator hop hlast (hright rest)]
  exact ihr _ _ V hrest

theorem Derives.operatorsOver {tokens : List Placed} {p : Phrase} (h : Derives tokens p) :
    OperatorsOver tokens p := by
  -- One case for each rule: its tokens are stepped over from the left, and each part by its
  -- induction hypothesis, until only the rest is checked.
  induction h with
  | number | text => exact fun previous rest V hrest => hrest _ rfl
  | reference name i j k =>
    -- Neither brace is an operator, and the name between them is a value.
    intro previous rest V hrest
    rw [List.cons_append, List.cons_append, List.singleton_append,
      checkOperatorsFrom_symbol .leftBrace rfl, checkOperatorsFrom_word (.reference name) nofun,
      checkOperatorsFrom_symbol .rightBrace rfl]
    exact hrest _ rfl
  | emptyCall f i j k =>
    -- The parentheses of a call are no operators either.
    intro previous rest V hrest
    rw [List.cons_append, List.cons_append, List.singleton_append,
      checkOperatorsFrom_word (.name f) nofun, checkOperatorsFrom_symbol .leftParen rfl,
      checkOperatorsFrom_symbol .rightParen rfl]
    exact hrest _ rfl
  | call f i j k _ ih =>
    -- The arguments begin behind the opening parenthesis, where a star may stand, and end before
    -- the closing one.
    intro previous rest V hrest
    rw [List.cons_append, List.cons_append, List.append_assoc, List.singleton_append,
      checkOperatorsFrom_word (.name f) nofun, checkOperatorsFrom_symbol .leftParen rfl]
    refine ih _ _ V rfl rfl fun last => ?_
    rw [checkOperatorsFrom_symbol .rightParen rfl]
    exact hrest _ rfl
  | parens i j _ ih =>
    -- Neither parenthesis is an operator, and the expression stands between them.
    intro previous rest V hrest
    rw [List.cons_append, List.append_assoc, List.singleton_append,
      checkOperatorsFrom_symbol .leftParen rfl]
    refine ih _ _ V fun last _ => ?_
    rw [checkOperatorsFrom_symbol .rightParen rfl]
    exact hrest _ rfl
  | negate i h ih =>
    -- A minus may be a sign, so only what stands behind it is checked, and that begins its operand.
    intro previous rest V hrest
    rw [List.cons_append, checkOperatorsFrom_minus (h.endsArgument_nextToken rest)]
    exact ih _ _ V hrest
  | factor _ ih | term _ ih => exact ih
  | @product i t op left right l e hop _ hright ihl ihr =>
    -- An operator has its left operand before it, and the first token of its right operand behind
    -- it.
    exact OperatorsOver.operation (l := l) (e := e) i (.inl hop) hright.endsArgument_nextToken
      ihl ihr
  | @sum i t op left right l e hop _ hright ihl ihr =>
    exact OperatorsOver.operation (l := l) (e := e) i (.inr hop) hright.endsArgument_nextToken
      ihl ihr
  | wildcard i =>
    -- A star alone in an argument is not an operator.
    intro before rest V hstart hend hrest
    rw [List.singleton_append, checkOperatorsFrom_wildcard hstart hend]
    exact hrest _
  | argument _ ih =>
    intro before rest V hstart hend hrest
    exact ih _ _ V fun last _ => hrest last
  | lastArgument _ ih => exact ih
  | moreArguments i _ _ ihfirst ihothers =>
    -- The comma ends the first argument and begins the next.
    intro before rest V hstart hend hrest
    rw [List.append_assoc, List.cons_append]
    refine ihfirst _ _ V hstart rfl fun last => ?_
    rw [checkOperatorsFrom_symbol .comma rfl]
    exact ihothers _ _ V rfl hend hrest

theorem Derives.checkOperators_eq {tokens : List Placed} {e : Expr}
    (h : Derives tokens (.expression e)) : checkOperators tokens = .ok () := by
  have hpass := h.operatorsOver none [] (.ok ()) fun _ _ => rfl
  rwa [List.append_nil] at hpass

/-! ## §3 The variables of a phrase -/

/-- The trees of a phrase. -/
def Phrase.trees : Phrase → List Expr
  | .factor e | .term e | .expression e | .argument e => [e]
  | .arguments es => es

theorem unknownReferences_reference {declared unknown : List String} {name : String} {j k : Nat} :
    unknownReferences declared unknown
        (⟨.symbol .leftBrace, i⟩ :: ⟨.reference name, j⟩ :: ⟨.symbol .rightBrace, k⟩ :: rest) =
      unknownReferences declared
        (if isKnown declared name then unknown else Expr.pushNew unknown name) rest := by
  rw [unknownReferences, unknownReferences, unknownReferences]
  all_goals simp

/-- A word that opens no reference is passed over. -/
theorem unknownReferences_word {declared unknown : List String} (t : Token)
    (h : t ≠ .symbol .leftBrace) :
    unknownReferences declared unknown (⟨t, i⟩ :: rest) =
      unknownReferences declared unknown rest := by
  rw [unknownReferences]
  · intro _ _ _ _ heq
    exact absurd (congrArg Placed.token heq) h
  · intro _ _ _ heq
    exact absurd (congrArg Placed.token heq) h

theorem unknownReferences_name {declared unknown : List String} (f : String) :
    unknownReferences declared unknown (⟨.name f, i⟩ :: rest) =
      unknownReferences declared unknown rest :=
  unknownReferences_word (.name f) nofun

theorem unknownReferences_symbol {declared unknown : List String} (s : Symbol)
    (h : s ≠ .leftBrace) :
    unknownReferences declared unknown (⟨.symbol s, i⟩ :: rest) =
      unknownReferences declared unknown rest :=
  unknownReferences_word (.symbol s) fun heq => h (Token.symbol.inj heq)

theorem unknownReferences_operator {declared unknown : List String} {t : Token} {op : Operator}
    (hop : productOperator? t = some op ∨ sumOperator? t = some op) :
    unknownReferences declared unknown (⟨t, i⟩ :: rest) =
      unknownReferences declared unknown rest := by
  refine unknownReferences_word t ?_
  rintro rfl
  rcases hop with hop | hop <;> cases hop

/-- The unknown names of a phrase are the unknown ones among the names its trees read. -/
theorem Derives.unknownReferences_append {tokens : List Placed} {p : Phrase}
    (h : Derives tokens p) (declared names : List String) (rest : List Placed) :
    unknownReferences declared (names.filter (!isKnown declared ·)) (tokens ++ rest) =
      unknownReferences declared
        ((p.trees.foldl Expr.addReferences names).filter (!isKnown declared ·)) rest := by
  -- The names known so far grow as the tokens are read, in the order of the tree.
  induction h generalizing names rest with
  | number | text | wildcard => exact unknownReferences_word _ nofun
  | reference name i j k =>
    -- A name that is not declared is added, unless it is there already.
    rw [List.cons_append, List.cons_append, List.singleton_append, unknownReferences_reference]
    simp only [Phrase.trees, List.foldl_cons, List.foldl_nil, Expr.addReferences,
      Expr.filter_pushNew]
    cases isKnown declared name <;> rfl
  | emptyCall f i j k =>
    -- Names of functions are not names of fields, and symbols have none.
    rw [List.cons_append, List.cons_append, List.singleton_append, unknownReferences_name,
      unknownReferences_symbol .leftParen (by decide),
      unknownReferences_symbol .rightParen (by decide)]
    rfl
  | call f i j k _ ih =>
    rw [List.cons_append, List.cons_append, List.append_assoc,
      unknownReferences_name, unknownReferences_symbol .leftParen (by decide),
      ih, List.singleton_append, unknownReferences_symbol .rightParen (by decide)]
    simp only [Phrase.trees, List.foldl_cons, List.foldl_nil, Expr.addReferences,
      Expr.addAll_eq_foldl]
  | parens i j _ ih =>
    rw [List.cons_append, List.append_assoc, unknownReferences_symbol .leftParen (by decide),
      ih, List.singleton_append, unknownReferences_symbol .rightParen (by decide)]
    rfl
  | negate i h ih =>
    rw [List.cons_append, unknownReferences_symbol .minus (by decide), ih]
    rfl
  | factor _ ih | term _ ih | argument _ ih | lastArgument _ ih => exact ih names rest
  | product i hop _ _ ihl ihr =>
    -- The names of the left operand come first, then those of the right one.
    rw [List.append_assoc, ihl, List.cons_append, unknownReferences_operator (.inl hop), ihr]
    rfl
  | sum i hop _ _ ihl ihr =>
    rw [List.append_assoc, ihl, List.cons_append, unknownReferences_operator (.inr hop), ihr]
    rfl
  | moreArguments i _ _ ihfirst ihothers =>
    rw [List.append_assoc, ihfirst, List.cons_append,
      unknownReferences_symbol .comma (by decide), ihothers]
    rfl

/-- The unknown names found in the tokens of a tree. -/
theorem Derives.unknownReferences_eq {tokens : List Placed} {e : Expr}
    (h : Derives tokens (.expression e)) (declared : List String) :
    unknownReferences declared [] tokens = .ok (e.references.filter (!isKnown declared ·)) := by
  have hpass := h.unknownReferences_append declared [] []
  rwa [List.append_nil] at hpass

/-- Of the names in the tokens of a tree, the check of variables reports those that are not known,
each once. -/
theorem Derives.checkVariables_eq {tokens : List Placed} {e : Expr}
    (h : Derives tokens (.expression e)) (declared : List String) :
    checkVariables declared tokens =
      if e.references.filter (!isKnown declared ·) = [] then .ok ()
      else .error (.unknownVariables (e.references.filter (!isKnown declared ·))) := by
  rw [checkVariables, h.unknownReferences_eq]
  cases e.references.filter (!isKnown declared ·) <;> rfl

theorem Derives.checkVariables_eq_ok_iff {tokens : List Placed} {e : Expr}
    (h : Derives tokens (.expression e)) {declared : List String} :
    checkVariables declared tokens = .ok () ↔ ∀ name ∈ e.references, isKnown declared name := by
  rw [h.checkVariables_eq]
  -- The check fails with the unknown names unless there are none.
  have hnil : e.references.filter (!isKnown declared ·) = [] ↔
      ∀ name ∈ e.references, isKnown declared name := by
    simp [List.filter_eq_nil_iff]
  rw [← hnil, ite_eq_left_iff]
  simp only [reduceCtorEq, imp_false, Decidable.not_not]

end BandedReport.Formula
