import BandedReport.Proofs.Formula.Steps

/-!
# The parser reads the grammar

The parser accepts the token lists that the grammar derives and returns the tree they denote.
Soundness is an induction over the length of what is read; completeness is an induction over
derivations, in which every phrase is followed by arbitrary tokens, since the two loops of the
parser decide by the next token whether they go on.

The balance of delimiters, which is checked before the grammar, holds of every derived list.
-/

namespace BandedReport.Formula

/-! ## §1 Soundness -/

/-- What the steps of the parser took from a token list is a phrase of the grammar. -/
structure SoundOn (tokens : List Placed) : Prop where
  factor : ∀ {e rest}, Returns (readFactor tokens) e rest →
    ∃ taken, tokens = taken ++ rest ∧ Derives taken (.factor e)
  /-- The loop over factors extends the term `done` that was read before. -/
  product : ∀ {left e rest done}, Derives done (.term left) →
    Returns (readProduct left tokens) e rest →
    ∃ taken, tokens = taken ++ rest ∧ Derives (done ++ taken) (.term e)
  term : ∀ {e rest}, Returns (readTerm tokens) e rest →
    ∃ taken, tokens = taken ++ rest ∧ Derives taken (.term e)
  /-- The loop over terms extends the expression `done` that was read before. -/
  sum : ∀ {left e rest done}, Derives done (.expression left) →
    Returns (readSum left tokens) e rest →
    ∃ taken, tokens = taken ++ rest ∧ Derives (done ++ taken) (.expression e)
  expression : ∀ {e rest}, Returns (readExpression tokens) e rest →
    ∃ taken, tokens = taken ++ rest ∧ Derives taken (.expression e)
  arguments : ∀ {es rest}, Returns (readArguments tokens) es rest →
    ∃ taken i, tokens = taken ++ ⟨.symbol .rightParen, i⟩ :: rest ∧
      Derives taken (.arguments es)

section

variable {tokens rest : List Placed} {e : Expr}

private theorem factor_sound (ih : ∀ shorter, shorter.length < tokens.length → SoundOn shorter)
    (h : Returns (readFactor tokens) e rest) :
    ∃ taken, tokens = taken ++ rest ∧ Derives taken (.factor e) := by
  -- What a factor begins with says which rule was read.
  cases factorRead_of_returns h with
  | number x i => exact ⟨_, rfl, .number x i⟩
  | text s i => exact ⟨_, rfl, .text s i⟩
  | reference name i j k => exact ⟨_, rfl, .reference name i j k⟩
  | emptyCall f i j k => exact ⟨_, rfl, .emptyCall f i j k⟩
  | @call f i j inside _ es hargs =>
    -- The arguments are shorter by the name and the parenthesis.
    have hinside : inside.length < inside.length + 1 + 1 := by omega
    obtain ⟨taken, k, rfl, hd⟩ := (ih inside hinside).arguments hargs
    exact ⟨_, by simp, .call f i j k hd⟩
  | parens i j hinner =>
    obtain ⟨taken, rfl, hd⟩ := (ih _ (by simp)).expression hinner
    exact ⟨_, by simp, .parens i j hd⟩
  | negate i hoperand =>
    obtain ⟨taken, rfl, hd⟩ := (ih _ (by simp)).factor hoperand
    exact ⟨_, rfl, .negate i hd⟩

private theorem product_sound {left : Expr} {done : List Placed}
    (ih : ∀ shorter, shorter.length < tokens.length → SoundOn shorter)
    (hdone : Derives done (.term left)) (h : Returns (readProduct left tokens) e rest) :
    ∃ taken, tokens = taken ++ rest ∧ Derives (done ++ taken) (.term e) := by
  cases tokens with
  | nil =>
    obtain ⟨rfl, rfl⟩ := readProduct_nil.mp h
    exact ⟨[], rfl, by simpa using hdone⟩
  | cons t tokens =>
    rw [readProduct_cons] at h
    -- The loop goes on where an operator stands, and the left operand grows by what is read.
    cases hop : productOperator? t.token with
    | none =>
      simp only [hop] at h
      obtain ⟨rfl, rfl⟩ := h
      exact ⟨[], rfl, by simpa using hdone⟩
    | some op =>
      simp only [hop] at h
      obtain ⟨right, mid, hfactor, hmore⟩ := h
      obtain ⟨operand, rfl, hright⟩ := (ih tokens (by simp)).factor hfactor
      -- What is behind the right operand is shorter still.
      have after := ih mid (by simp only [List.length_append, List.length_cons]; omega)
      obtain ⟨taken, rfl, hd⟩ := after.product (.product t.position hop hdone hright) hmore
      exact ⟨t :: (operand ++ taken), by simp, by simpa using hd⟩

private theorem term_sound (ih : ∀ shorter, shorter.length < tokens.length → SoundOn shorter)
    (h : Returns (readTerm tokens) e rest) :
    ∃ taken, tokens = taken ++ rest ∧ Derives taken (.term e) := by
  obtain ⟨left, mid, hfactor, hmore⟩ := readTerm_returns.mp h
  obtain ⟨first, rfl, hfirst⟩ := factor_sound ih hfactor
  obtain ⟨t, tail, rfl, -⟩ := hfirst.exists_cons
  have after := ih mid (by simp only [List.length_append, List.length_cons]; omega)
  obtain ⟨taken, rfl, hd⟩ := after.product (.factor hfirst) hmore
  exact ⟨_, by simp, hd⟩

private theorem sum_sound {left : Expr} {done : List Placed}
    (ih : ∀ shorter, shorter.length < tokens.length → SoundOn shorter)
    (hdone : Derives done (.expression left)) (h : Returns (readSum left tokens) e rest) :
    ∃ taken, tokens = taken ++ rest ∧ Derives (done ++ taken) (.expression e) := by
  cases tokens with
  | nil =>
    obtain ⟨rfl, rfl⟩ := readSum_nil.mp h
    exact ⟨[], rfl, by simpa using hdone⟩
  | cons t tokens =>
    rw [readSum_cons] at h
    -- The same for the operators of a sum, with terms as operands.
    cases hop : sumOperator? t.token with
    | none =>
      simp only [hop] at h
      obtain ⟨rfl, rfl⟩ := h
      exact ⟨[], rfl, by simpa using hdone⟩
    | some op =>
      simp only [hop] at h
      obtain ⟨right, mid, hterm, hmore⟩ := h
      obtain ⟨operand, rfl, hright⟩ := (ih tokens (by simp)).term hterm
      have after := ih mid (by simp only [List.length_append, List.length_cons]; omega)
      obtain ⟨taken, rfl, hd⟩ := after.sum (.sum t.position hop hdone hright) hmore
      exact ⟨t :: (operand ++ taken), by simp, by simpa using hd⟩

private theorem expression_sound
    (ih : ∀ shorter, shorter.length < tokens.length → SoundOn shorter)
    (h : Returns (readExpression tokens) e rest) :
    ∃ taken, tokens = taken ++ rest ∧ Derives taken (.expression e) := by
  obtain ⟨left, mid, hterm, hmore⟩ := readExpression_returns.mp h
  obtain ⟨first, rfl, hfirst⟩ := term_sound ih hterm
  obtain ⟨t, tail, rfl, -⟩ := hfirst.exists_cons
  have after := ih mid (by simp only [List.length_append, List.length_cons]; omega)
  obtain ⟨taken, rfl, hd⟩ := after.sum (.term hfirst) hmore
  exact ⟨_, by simp, hd⟩

private theorem argument_sound
    (ih : ∀ shorter, shorter.length < tokens.length → SoundOn shorter)
    (h : Returns (readArgument tokens) e rest) :
    ∃ taken, tokens = taken ++ rest ∧ Derives taken (.argument e) := by
  cases hstar : readWildcard? tokens with
  | none =>
    -- Without a star at the end of an argument, it is an expression.
    rw [readArgument_expression hstar] at h
    obtain ⟨taken, rfl, hd⟩ := expression_sound ih h
    exact ⟨taken, rfl, .argument hd⟩
  | some others =>
    rw [readWildcard?.eq_def] at hstar
    split at hstar
    · rename_i i others
      split at hstar
      · rename_i hend
        obtain ⟨rfl, rfl⟩ := (readArgument_wildcard hend).mp h
        exact ⟨_, rfl, .wildcard i⟩
      · cases hstar
    · cases hstar

private theorem arguments_sound {es : List Expr}
    (ih : ∀ shorter, shorter.length < tokens.length → SoundOn shorter)
    (h : Returns (readArguments tokens) es rest) :
    ∃ taken i, tokens = taken ++ ⟨.symbol .rightParen, i⟩ :: rest ∧
      Derives taken (.arguments es) := by
  obtain ⟨e, mid, harg, hmore⟩ := readArguments_returns.mp h
  obtain ⟨first, rfl, hfirst⟩ := argument_sound ih harg
  rcases hmore with ⟨i, rfl, rfl⟩ | ⟨i, more, others, rfl, hothers, rfl⟩
  · exact ⟨first, i, rfl, .lastArgument hfirst⟩
  · have after := ih more (by simp only [List.length_append, List.length_cons]; omega)
    obtain ⟨taken, j, rfl, hd⟩ := after.arguments hothers
    exact ⟨_, j, by simp, .moreArguments i hfirst hd⟩

end

/-- Whatever the steps of the parser take is a phrase. -/
theorem soundOn (tokens : List Placed) : SoundOn tokens := by
  -- Every step reads something before it hands over, so a longer list rests on shorter ones only.
  induction hn : tokens.length using Nat.strongRecOn generalizing tokens with
  | ind n ih =>
    subst hn
    have shorter : ∀ others : List Placed, others.length < tokens.length → SoundOn others :=
      fun others hlt => ih _ hlt others rfl
    exact {
      factor := factor_sound shorter
      product := product_sound shorter
      term := term_sound shorter
      sum := sum_sound shorter
      expression := expression_sound shorter
      arguments := arguments_sound shorter }

/-! ## §2 Completeness -/

/-- No further factor follows. -/
def ProductStops (rest : List Placed) : Prop := ∀ t ∈ rest.head?, productOperator? t.token = none

/-- No further term follows. -/
def SumStops (rest : List Placed) : Prop := ∀ t ∈ rest.head?, sumOperator? t.token = none

theorem readProduct_stops {rest : List Placed} (e : Expr) (h : ProductStops rest) :
    Returns (readProduct e rest) e rest := by
  cases rest with
  | nil => exact readProduct_nil.mpr ⟨rfl, rfl⟩
  | cons t rest =>
    have hop : productOperator? t.token = none := h t rfl
    rw [readProduct_cons, hop]
    exact ⟨rfl, rfl⟩

theorem readSum_stops {rest : List Placed} (e : Expr) (h : SumStops rest) :
    Returns (readSum e rest) e rest := by
  cases rest with
  | nil => exact readSum_nil.mpr ⟨rfl, rfl⟩
  | cons t rest =>
    have hop : sumOperator? t.token = none := h t rfl
    rw [readSum_cons, hop]
    exact ⟨rfl, rfl⟩

/-- An operator of the one loop is none of the other. -/
theorem productOperator?_of_sumOperator? {t : Token} {op : Operator}
    (h : sumOperator? t = some op) : productOperator? t = none := by
  cases t with
  | symbol s => cases s <;> simp_all [sumOperator?, productOperator?]
  | number | text | name | reference => rfl

theorem stops_of_atArgumentEnd {rest : List Placed} (h : atArgumentEnd rest = true) :
    ProductStops rest ∧ SumStops rest := by
  rw [atArgumentEnd.eq_def] at h
  split at h
  · exact ⟨by rintro t ⟨⟩; rfl, by rintro t ⟨⟩; rfl⟩
  · exact ⟨by rintro t ⟨⟩; rfl, by rintro t ⟨⟩; rfl⟩
  · cases h

/-- The parser reads a phrase off the front of any list it can stand before. A term or an
expression may go on, so for these the claim is about the loop that follows. -/
def Completes (tokens : List Placed) : Phrase → Prop
  | .factor e => ∀ rest, Returns (readFactor (tokens ++ rest)) e rest
  | .term left => ∀ rest e others, Returns (readProduct left rest) e others →
      Returns (readTerm (tokens ++ rest)) e others
  | .expression left => ∀ rest e others, ProductStops rest → Returns (readSum left rest) e others →
      Returns (readExpression (tokens ++ rest)) e others
  | .argument e => ∀ rest, atArgumentEnd rest = true →
      Returns (readArgument (tokens ++ rest)) e rest
  | .arguments es => ∀ i rest,
      Returns (readArguments (tokens ++ ⟨.symbol .rightParen, i⟩ :: rest)) es rest

theorem Derives.completes {tokens : List Placed} {p : Phrase} (h : Derives tokens p) :
    Completes tokens p := by
  induction h with
  | number x i => exact fun rest => (FactorRead.number x i rest).returns
  | text s i => exact fun rest => (FactorRead.text s i rest).returns
  | reference name i j k => exact fun rest => (FactorRead.reference name i j k rest).returns
  | emptyCall f i j k => exact fun rest => (FactorRead.emptyCall f i j k rest).returns
  | call f i j k _ ih =>
    -- A call is read once its arguments are.
    intro rest
    rw [List.cons_append, List.cons_append, List.append_assoc]
    exact (FactorRead.call f i j (ih k rest)).returns
  | parens i j _ ih =>
    -- The parenthesis behind the inner expression stops both loops.
    intro rest
    have hinner := ih (⟨.symbol .rightParen, j⟩ :: rest) _ _ (by rintro t ⟨⟩; rfl)
      (readSum_stops _ (by rintro t ⟨⟩; rfl))
    rw [List.cons_append, List.append_assoc]
    exact (FactorRead.parens i j hinner).returns
  | negate i _ ih => exact fun rest => (FactorRead.negate i (ih rest)).returns
  | factor _ ih => exact fun rest e others hmore => readTerm_returns.mpr ⟨_, rest, ih rest, hmore⟩
  | @product i t op left right l r hop _ _ ihl ihr =>
    intro rest e others hmore
    -- The loop takes the operator and its right operand, and goes on with the rest.
    have hloop : Returns (readProduct l (⟨t, i⟩ :: (right ++ rest))) e others := by
      rw [readProduct_cons, hop]
      exact ⟨r, rest, ihr rest, hmore⟩
    rw [List.append_assoc]
    exact ihl _ _ _ hloop
  | term _ ih =>
    intro rest e others hstops hmore
    exact readExpression_returns.mpr ⟨_, rest, ih _ _ _ (readProduct_stops _ hstops), hmore⟩
  | @sum i t op left right l r hop _ _ ihl ihr =>
    intro rest e others hstops hmore
    -- So does the loop of a sum; its right operand stops where a sum goes on.
    have hloop : Returns (readSum l (⟨t, i⟩ :: (right ++ rest))) e others := by
      rw [readSum_cons, hop]
      exact ⟨r, rest, ihr _ _ _ (readProduct_stops _ hstops), hmore⟩
    -- The loop over the factors of the left operand must stop at the operator.
    have hnext : ProductStops (⟨t, i⟩ :: (right ++ rest)) := by
      rintro _ ⟨⟩
      exact productOperator?_of_sumOperator? hop
    rw [List.append_assoc]
    exact ihl _ _ _ hnext hloop
  | wildcard i => exact fun rest hend => (readArgument_wildcard hend).mpr ⟨rfl, rfl⟩
  | @argument tokens e hd ih =>
    intro rest hend
    obtain ⟨hproduct, hsum⟩ := stops_of_atArgumentEnd hend
    obtain ⟨t, tail, rfl, ht⟩ := hd.exists_cons
    -- An expression does not begin with a star, so it is not taken for a wildcard.
    have hstar : readWildcard? (t :: tail ++ rest) = none := by
      obtain ⟨token, i⟩ := t
      cases token with
      | symbol s => cases s <;> first | rfl | cases ht
      | number | text | name | reference => rfl
    rw [readArgument_expression hstar]
    exact ih _ _ _ hproduct (readSum_stops _ hsum)
  | lastArgument _ ih =>
    intro i rest
    exact readArguments_returns.mpr ⟨_, _, ih _ rfl, .inl ⟨i, rfl, rfl⟩⟩
  | @moreArguments i first others e es _ _ ihfirst ihothers =>
    -- The comma ends the first argument, and the others are read behind it.
    intro j rest
    have hfirst : Returns (readArgument (first ++ ⟨.symbol .comma, i⟩ ::
        (others ++ ⟨.symbol .rightParen, j⟩ :: rest))) e _ := ihfirst _ rfl
    rw [List.append_assoc, List.cons_append]
    exact readArguments_returns.mpr ⟨_, _, hfirst, .inr ⟨i, _, _, rfl, ihothers j rest, rfl⟩⟩

/-- A token list is parsed to the tree that it derives. -/
theorem exprOfTokens_eq_ok_iff {tokens : List Placed} {e : Expr} :
    exprOfTokens tokens = .ok e ↔ Derives tokens (.expression e) := by
  -- The whole list is read if nothing is left over.
  have hreturns : exprOfTokens tokens = .ok e ↔ Returns (readExpression tokens) e [] := by
    rw [exprOfTokens]
    cases readExpression tokens with
    | error fault => simp
    | ok read =>
      obtain ⟨e', rest, _⟩ := read
      cases rest <;> simp
  rw [hreturns]
  constructor
  · -- With nothing left over, what was taken is the list.
    intro h
    obtain ⟨taken, rfl, hd⟩ := (soundOn tokens).expression h
    rwa [List.append_nil]
  · intro h
    have hread := h.completes [] e [] (by rintro t ⟨⟩) (readSum_nil.mpr ⟨rfl, rfl⟩)
    rwa [List.append_nil] at hread

/-- A token list denotes at most one tree. -/
theorem Derives.unique {tokens : List Placed} {e e' : Expr} (h : Derives tokens (.expression e))
    (h' : Derives tokens (.expression e')) : e = e' := by
  rw [← exprOfTokens_eq_ok_iff] at h h'
  exact Except.ok.inj (h.symm.trans h')

/-! ## §3 Balance -/

/-- The delimiters of a phrase pair up and nest, whatever is open around it. -/
theorem Derives.balanceFrom_append {tokens : List Placed} {p : Phrase} (h : Derives tokens p) :
    ∀ opened rest, balanceFrom opened (tokens ++ rest) = balanceFrom opened rest := by
  -- Every rule closes what it opens.
  induction h with
  | number | text | reference | emptyCall | wildcard =>
    intro opened rest
    rfl
  | call f i j k _ ih =>
    -- The parenthesis of the call is opened, the arguments leave it as it is, and it is closed.
    intro opened rest
    rw [List.cons_append, List.cons_append, List.append_assoc, balanceFrom, balanceFrom, ih]
    rfl
    all_goals simp
  | parens i j _ ih =>
    intro opened rest
    rw [List.cons_append, List.append_assoc, balanceFrom, ih]
    rfl
  | negate i _ ih =>
    intro opened rest
    exact ih opened rest
  | factor _ ih | term _ ih | argument _ ih | lastArgument _ ih => exact ih
  | product i hop _ _ ihl ihr =>
    intro opened rest
    rw [List.append_assoc, List.cons_append, ihl]
    -- No operator is a delimiter.
    rcases productOperator?_eq_some_iff.mp hop with ⟨rfl, -⟩ | ⟨rfl, -⟩
    · exact ihr opened rest
    · exact ihr opened rest
  | sum i hop _ _ ihl ihr =>
    intro opened rest
    rw [List.append_assoc, List.cons_append, ihl]
    rcases sumOperator?_eq_some_iff.mp hop with ⟨rfl, -⟩ | ⟨rfl, -⟩
    · exact ihr opened rest
    · exact ihr opened rest
  | moreArguments i _ _ ihfirst ihothers =>
    intro opened rest
    rw [List.append_assoc, List.cons_append, ihfirst]
    exact ihothers opened rest

/-- The check that runs before the grammar refuses nothing that the grammar derives. -/
theorem Derives.checkDelimiters_eq {tokens : List Placed} {p : Phrase} (h : Derives tokens p) :
    checkDelimiters tokens = .ok () := by
  have hbalance := h.balanceFrom_append [] []
  rwa [List.append_nil] at hbalance

/-! ## §4 Formulas -/

/-- A formula is read to the tree that its tokens derive. -/
theorem parse_eq_ok_iff {formula : String} {e : Expr} :
    Expr.parse formula = .ok e ↔
      trimChars formula.toList ≠ [] ∧
        ∃ tokens, Token.scan (trimChars formula.toList) = .ok tokens ∧
          Derives tokens (.expression e) := by
  -- The stages in order: blanks, words, delimiters, grammar.
  have hstages : Expr.parse formula =
      if trimChars formula.toList = [] then .error .emptyFormula
      else (Token.scan (trimChars formula.toList)).bind fun tokens =>
        (checkDelimiters tokens).bind fun _ => exprOfTokens tokens := by
    simp only [Expr.parse, List.isEmpty_iff]
    rfl
  rw [hstages]
  by_cases hchars : trimChars formula.toList = []
  · simp [hchars]
  rw [if_neg hchars]
  cases hscan : Token.scan (trimChars formula.toList) with
  | error fault => simp [Except.bind]
  | ok tokens =>
    simp only [Except.bind, Except.ok.injEq, exists_eq_left', ne_eq, hchars, not_false_eq_true,
      true_and]
    constructor
    · intro h
      cases hcheck : checkDelimiters tokens with
      | error fault => simp [hcheck] at h
      | ok =>
        rw [hcheck] at h
        exact exprOfTokens_eq_ok_iff.mp h
    · -- What is derived has its delimiters in order.
      intro h
      rw [h.checkDelimiters_eq]
      exact exprOfTokens_eq_ok_iff.mpr h

/-- **The parser accepts exactly its grammar.** A formula is parsed to a tree just when something
is left of it after trimming, this splits into tokens, and the tokens derive the tree. The words
alone fix the tree, and the delimiters of tokens that derive a tree are balanced. -/
theorem parse_accepts_grammar :
    (∀ formula e, Expr.parse formula = .ok e ↔
      trimChars formula.toList ≠ [] ∧
        ∃ tokens, Token.scan (trimChars formula.toList) = .ok tokens ∧
          Derives tokens (.expression e)) ∧
    (∀ tokens others e e', words tokens = words others → Derives tokens (.expression e) →
      Derives others (.expression e') → e = e') ∧
    (∀ tokens e, Derives tokens (.expression e) → checkDelimiters tokens = .ok ()) := by
  refine ⟨fun _ _ => parse_eq_ok_iff, ?_, fun _ _ h => h.checkDelimiters_eq⟩
  intro tokens others e e' hwords h h'
  exact h.unique (h'.of_words_eq hwords)

end BandedReport.Formula
