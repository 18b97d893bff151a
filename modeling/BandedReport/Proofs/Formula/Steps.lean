import BandedReport.Proofs.Formula.Grammar

/-!
# What each step of the parser returns

One equivalence for each function of the parser, in terms of `Returns`, which forgets the proofs
that the steps hand on. The theory of parsing rests on these equivalences and opens no step again.
-/

namespace BandedReport.Formula

/-! ## §1 Results of a step -/

/-- A parsing step succeeds with the result `a` and leaves the tokens `rest`. -/
def Returns {α : Type} {P : List Placed → Prop} (step : Except Error (α × { rest // P rest }))
    (a : α) (rest : List Placed) : Prop :=
  ∃ h, step = .ok (a, ⟨rest, h⟩)

section

variable {α : Type} {P : List Placed → Prop}

@[simp] theorem returns_ok {read : α × { rest // P rest }} {a : α} {rest : List Placed} :
    Returns (.ok read) a rest ↔ read.1 = a ∧ read.2.val = rest := by
  obtain ⟨b, mid, h⟩ := read
  constructor
  · rintro ⟨_, h⟩
    simpa using h
  · rintro ⟨rfl, rfl⟩
    exact ⟨h, rfl⟩

@[simp] theorem not_returns_error {fault : Error} {a : α} {rest : List Placed} :
    ¬ Returns (.error fault : Except Error (α × { rest // P rest })) a rest := by
  rintro ⟨_, h⟩
  cases h

/-- What follows a step that succeeded holds of its result and its rest. -/
theorem exists_returns_ok {read : α × { rest // P rest }} {Q : α → List Placed → Prop} :
    (∃ a rest, Returns (.ok read) a rest ∧ Q a rest) ↔ Q read.1 read.2.val := by
  constructor
  · rintro ⟨a, rest, hread, hq⟩
    rw [returns_ok] at hread
    rwa [hread.1, hread.2]
  · intro hq
    exact ⟨_, _, returns_ok.mpr ⟨rfl, rfl⟩, hq⟩

end

theorem expectSymbol_returns {s : Symbol} {tokens rest : List Placed} :
    Returns (expectSymbol s tokens) () rest ↔ ∃ i, tokens = ⟨.symbol s, i⟩ :: rest := by
  cases tokens with
  | nil => simp [expectSymbol]
  | cons t tokens =>
    obtain ⟨token, i⟩ := t
    rw [expectSymbol]
    cases token with
    | symbol t => by_cases h : t = s <;> simp [Token.isSymbol, h]
    | number | text | name | reference => simp [Token.isSymbol]

/-! ## §2 Expressions and terms -/

section

variable {tokens rest : List Placed} {t : Placed} {left e : Expr}

theorem readExpression_returns :
    Returns (readExpression tokens) e rest ↔
      ∃ left mid, Returns (readTerm tokens) left mid ∧ Returns (readSum left mid) e rest := by
  rw [readExpression]
  cases readTerm tokens with
  | error fault => simp
  | ok read =>
    rw [exists_returns_ok]
    obtain ⟨left, mid, _⟩ := read
    cases hsum : readSum left mid <;> simp [hsum]

theorem readSum_nil : Returns (readSum left []) e rest ↔ left = e ∧ [] = rest := by
  rw [readSum]
  exact returns_ok

/-- After an operator another term is read, after anything else nothing. -/
theorem readSum_cons :
    Returns (readSum left (t :: tokens)) e rest ↔
      match sumOperator? t.token with
      | none => left = e ∧ t :: tokens = rest
      | some op => ∃ right mid, Returns (readTerm tokens) right mid ∧
          Returns (readSum (.binary op left right) mid) e rest := by
  rw [readSum]
  -- The next token is an operator of sums, or the loop stops in front of it.
  cases sumOperator? t.token with
  | none => exact returns_ok
  | some op =>
    -- The right operand is read next, and then the loop goes on.
    cases readTerm tokens with
    | error fault => simp
    | ok read =>
      simp only [exists_returns_ok]
      obtain ⟨right, mid, _⟩ := read
      cases readSum (.binary op left right) mid <;> simp

theorem readTerm_returns :
    Returns (readTerm tokens) e rest ↔
      ∃ left mid, Returns (readFactor tokens) left mid ∧ Returns (readProduct left mid) e rest := by
  rw [readTerm]
  cases readFactor tokens with
  | error fault => simp
  | ok read =>
    rw [exists_returns_ok]
    obtain ⟨left, mid, _⟩ := read
    cases hproduct : readProduct left mid <;> simp [hproduct]

theorem readProduct_nil : Returns (readProduct left []) e rest ↔ left = e ∧ [] = rest := by
  rw [readProduct]
  exact returns_ok

/-- After an operator another factor is read, after anything else nothing. -/
theorem readProduct_cons :
    Returns (readProduct left (t :: tokens)) e rest ↔
      match productOperator? t.token with
      | none => left = e ∧ t :: tokens = rest
      | some op => ∃ right mid, Returns (readFactor tokens) right mid ∧
          Returns (readProduct (.binary op left right) mid) e rest := by
  rw [readProduct]
  -- The next token is an operator of products, or the loop stops in front of it.
  cases productOperator? t.token with
  | none => exact returns_ok
  | some op =>
    -- The right operand is read next, and then the loop goes on.
    cases readFactor tokens with
    | error fault => simp
    | ok read =>
      simp only [exists_returns_ok]
      obtain ⟨right, mid, _⟩ := read
      cases readProduct (.binary op left right) mid <;> simp

end

/-! ## §3 Arguments -/

section

variable {tokens rest : List Placed}

theorem readArgument_wildcard {i : Nat} {e : Expr} (h : atArgumentEnd tokens = true) :
    Returns (readArgument (⟨.symbol .star, i⟩ :: tokens)) e rest ↔
      .wildcard = e ∧ tokens = rest := by
  rw [readArgument]
  simp [readWildcard?, h]

theorem readArgument_expression {e : Expr} (h : readWildcard? tokens = none) :
    Returns (readArgument tokens) e rest ↔ Returns (readExpression tokens) e rest := by
  rw [readArgument, h]

/-- After an argument either the parenthesis closes or a comma brings further arguments. -/
theorem readArguments_returns {es : List Expr} :
    Returns (readArguments tokens) es rest ↔
      ∃ e mid, Returns (readArgument tokens) e mid ∧
        ((∃ i, mid = ⟨.symbol .rightParen, i⟩ :: rest ∧ [e] = es) ∨
          ∃ i more others, mid = ⟨.symbol .comma, i⟩ :: more ∧
            Returns (readArguments more) others rest ∧ e :: others = es) := by
  rw [readArguments.eq_def]
  -- An argument is read first; what stands behind it decides between an error, the others and the
  -- end.
  split
  · rename_i hread
    simp [hread]
  · rename_i hread
    rw [hread, exists_returns_ok]
    simp
  · -- A comma, and the other arguments are read behind it.
    rename_i e i more _ hread
    rw [hread, exists_returns_ok]
    cases hmore : readArguments more with
    | error fault =>
      simp only [not_returns_error, false_iff]
      rintro (⟨j, h, -⟩ | ⟨j, others, es', h, hothers, -⟩)
      · cases h
      · cases h
        simp [hmore] at hothers
    | ok read =>
      simp only [returns_ok]
      constructor
      · rintro ⟨rfl, hrest⟩
        exact .inr ⟨i, more, _, rfl, hmore ▸ returns_ok.mpr ⟨rfl, hrest⟩, rfl⟩
      · rintro (⟨j, h, -⟩ | ⟨j, others, es', h, hothers, rfl⟩)
        · cases h
        · cases h
          obtain ⟨rfl, hrest⟩ := returns_ok.mp (hmore ▸ hothers)
          exact ⟨rfl, hrest⟩
  · -- A closing parenthesis, and there are no others.
    rename_i hread
    rw [hread, exists_returns_ok, returns_ok]
    simp [and_comm]
  · -- Neither of the two.
    rename_i hcomma hparen hread
    rw [hread, exists_returns_ok]
    simp only [not_returns_error, false_iff]
    rintro (⟨j, h, -⟩ | ⟨j, others, es', h, -, -⟩)
    · cases h
      exact hparen rfl
    · cases h
      exact hcomma rfl

end

/-! ## §4 Factors -/

/-- The ways in which `readFactor` returns. -/
inductive FactorRead : List Placed → Expr → List Placed → Prop where
  | number (x : Float) (i : Nat) (rest : List Placed) :
      FactorRead (⟨.number x, i⟩ :: rest) (.number x) rest
  | text (s : String) (i : Nat) (rest : List Placed) :
      FactorRead (⟨.text s, i⟩ :: rest) (.text s) rest
  | reference (name : String) (i j k : Nat) (rest : List Placed) :
      FactorRead
        (⟨.symbol .leftBrace, i⟩ :: ⟨.reference name, j⟩ :: ⟨.symbol .rightBrace, k⟩ :: rest)
        (.reference name) rest
  | emptyCall (f : String) (i j k : Nat) (rest : List Placed) :
      FactorRead (⟨.name f, i⟩ :: ⟨.symbol .leftParen, j⟩ :: ⟨.symbol .rightParen, k⟩ :: rest)
        (.call f []) rest
  | call (f : String) (i j : Nat) {inner rest : List Placed} {args : List Expr} :
      Returns (readArguments inner) args rest →
      FactorRead (⟨.name f, i⟩ :: ⟨.symbol .leftParen, j⟩ :: inner) (.call f args) rest
  | parens (i j : Nat) {inner rest : List Placed} {e : Expr} :
      Returns (readExpression inner) e (⟨.symbol .rightParen, j⟩ :: rest) →
      FactorRead (⟨.symbol .leftParen, i⟩ :: inner) e rest
  | negate (i : Nat) {operand rest : List Placed} {e : Expr} :
      Returns (readFactor operand) e rest →
      FactorRead (⟨.symbol .minus, i⟩ :: operand) (.negate e) rest

section

variable {tokens rest : List Placed}

theorem factorRead_of_returns {e : Expr} (h : Returns (readFactor tokens) e rest) :
    FactorRead tokens e rest := by
  -- One case for each way in which a factor may begin; the remaining ones are errors.
  rw [readFactor.eq_def] at h
  split at h
  · simp at h
  · rw [returns_ok] at h
    obtain ⟨rfl, rfl⟩ := h
    exact .number _ _ _
  · rw [returns_ok] at h
    obtain ⟨rfl, rfl⟩ := h
    exact .text _ _ _
  · -- A sign and its operand.
    rename_i i operand
    cases hread : readFactor operand with
    | error fault => simp [hread] at h
    | ok read =>
      simp only [hread, returns_ok] at h
      obtain ⟨rfl, hrest⟩ := h
      exact .negate i (hread ▸ returns_ok.mpr ⟨rfl, hrest⟩)
  · -- Parentheses, closed behind the expression.
    rename_i i inner
    cases hread : readExpression inner with
    | error fault => simp [hread] at h
    | ok read =>
      simp only [hread] at h
      cases hclose : expectSymbol .rightParen read.2.val with
      | error fault => simp [hclose] at h
      | ok close =>
        simp only [hclose, returns_ok] at h
        obtain ⟨rfl, hrest⟩ := h
        obtain ⟨j, hj⟩ := expectSymbol_returns.mp (hclose ▸ returns_ok.mpr ⟨rfl, hrest⟩)
        exact .parens i j (hread ▸ returns_ok.mpr ⟨rfl, hj⟩)
  · -- Braces, closed behind the name.
    rename_i i name j others
    cases hclose : expectSymbol .rightBrace others with
    | error fault => simp [hclose] at h
    | ok close =>
      simp only [hclose, returns_ok] at h
      obtain ⟨rfl, hrest⟩ := h
      obtain ⟨k, rfl⟩ := expectSymbol_returns.mp (hclose ▸ returns_ok.mpr ⟨rfl, hrest⟩)
      exact .reference name i j k rest
  · simp at h
  · rw [returns_ok] at h
    obtain ⟨rfl, rfl⟩ := h
    exact .emptyCall _ _ _ _ _
  · -- A call, its parenthesis closed by the reader of arguments.
    rename_i f i j inner _
    cases hread : readArguments inner with
    | error fault => simp [hread] at h
    | ok read =>
      simp only [hread, returns_ok] at h
      obtain ⟨rfl, hrest⟩ := h
      exact .call f i j (hread ▸ returns_ok.mpr ⟨rfl, hrest⟩)
  · simp at h
  · simp at h

/-- No argument begins with a closing parenthesis. -/
theorem not_readArguments_rightParen {i : Nat} {es : List Expr} :
    ¬ Returns (readArguments (⟨.symbol .rightParen, i⟩ :: tokens)) es rest := by
  intro h
  obtain ⟨e, mid, harg, -⟩ := readArguments_returns.mp h
  rw [readArgument_expression rfl] at harg
  obtain ⟨_, _, hterm, -⟩ := readExpression_returns.mp harg
  obtain ⟨_, _, hfactor, -⟩ := readTerm_returns.mp hterm
  cases factorRead_of_returns hfactor

theorem FactorRead.returns {e : Expr} (h : FactorRead tokens e rest) :
    Returns (readFactor tokens) e rest := by
  cases h with
  | number | text =>
    rw [readFactor]
    exact returns_ok.mpr ⟨rfl, rfl⟩
  | reference name i j k =>
    -- The closing brace is there, so it is not missed.
    rw [readFactor]
    obtain ⟨_, hclose⟩ := expectSymbol_returns.mpr ⟨k, rfl⟩
    rw [hclose]
    exact returns_ok.mpr ⟨rfl, rfl⟩
  | emptyCall =>
    rw [readFactor]
    exact returns_ok.mpr ⟨rfl, rfl⟩
  | @call f i j inner _ args hargs =>
    obtain ⟨_, hread⟩ := hargs
    -- Were the list of arguments empty, the step for calls without arguments would be taken.
    rw [readFactor, hread]
    · exact returns_ok.mpr ⟨rfl, rfl⟩
    · rintro k others rfl
      exact not_readArguments_rightParen ⟨_, hread⟩
  | parens i j hinner =>
    -- The closing parenthesis is there too.
    obtain ⟨_, hread⟩ := hinner
    have hclose : Returns (expectSymbol .rightParen (⟨.symbol .rightParen, j⟩ :: rest)) () rest :=
      expectSymbol_returns.mpr ⟨j, rfl⟩
    obtain ⟨_, hclose⟩ := hclose
    rw [readFactor, hread]
    simp only [hclose, returns_ok, and_self]
  | negate i hoperand =>
    obtain ⟨_, hread⟩ := hoperand
    rw [readFactor, hread]
    exact returns_ok.mpr ⟨rfl, rfl⟩

end

end BandedReport.Formula
