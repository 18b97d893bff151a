import BandedReport.Formula.Parser

/-!
# The grammar of formulas

An inductive relation beside the parser: which token lists denote which trees. The grammar is

* expression: `term (('+' | '-') term)*`;
* term: `factor (('*' | '/') factor)*`;
* factor: `NUMBER | TEXT | '{' NAME '}' | NAME '(' [arguments] ')' | '(' expression ')' |
  '-' factor`;
* arguments: `argument (',' argument)*`;
* argument: `'*' | expression`.

Both loops group to the left, so they are rules with the longer operand in front. No rule looks at
a position: `Derives.of_words_eq` moves a derivation to any list with the same words.
-/

namespace BandedReport.Formula

/-! ## §1 Words and phrases -/

/-- The words of a token list, without their positions. -/
def words (tokens : List Placed) : List Token := tokens.map (·.token)

/-- A category of the grammar together with the tree, or the trees, that it denotes. -/
inductive Phrase where
  | factor (e : Expr)
  | term (e : Expr)
  | expression (e : Expr)
  | argument (e : Expr)
  /-- One or more arguments with commas between them. -/
  | arguments (es : List Expr)

/-- `Derives tokens p`: the whole token list is a phrase `p` of the grammar. -/
inductive Derives : List Placed → Phrase → Prop where
  | number (x : Float) (i : Nat) : Derives [⟨.number x, i⟩] (.factor (.number x))
  | text (s : String) (i : Nat) : Derives [⟨.text s, i⟩] (.factor (.text s))
  | reference (name : String) (i j k : Nat) :
      Derives [⟨.symbol .leftBrace, i⟩, ⟨.reference name, j⟩, ⟨.symbol .rightBrace, k⟩]
        (.factor (.reference name))
  | emptyCall (f : String) (i j k : Nat) :
      Derives [⟨.name f, i⟩, ⟨.symbol .leftParen, j⟩, ⟨.symbol .rightParen, k⟩]
        (.factor (.call f []))
  | call (f : String) (i j k : Nat) {args : List Placed} {es : List Expr} :
      Derives args (.arguments es) →
      Derives (⟨.name f, i⟩ :: ⟨.symbol .leftParen, j⟩ :: (args ++ [⟨.symbol .rightParen, k⟩]))
        (.factor (.call f es))
  | parens (i j : Nat) {inner : List Placed} {e : Expr} :
      Derives inner (.expression e) →
      Derives (⟨.symbol .leftParen, i⟩ :: (inner ++ [⟨.symbol .rightParen, j⟩])) (.factor e)
  | negate (i : Nat) {operand : List Placed} {e : Expr} :
      Derives operand (.factor e) →
      Derives (⟨.symbol .minus, i⟩ :: operand) (.factor (.negate e))
  | factor {tokens : List Placed} {e : Expr} :
      Derives tokens (.factor e) → Derives tokens (.term e)
  | product (i : Nat) {t : Token} {op : Operator} {left right : List Placed} {l r : Expr} :
      productOperator? t = some op → Derives left (.term l) → Derives right (.factor r) →
      Derives (left ++ ⟨t, i⟩ :: right) (.term (.binary op l r))
  | term {tokens : List Placed} {e : Expr} :
      Derives tokens (.term e) → Derives tokens (.expression e)
  | sum (i : Nat) {t : Token} {op : Operator} {left right : List Placed} {l r : Expr} :
      sumOperator? t = some op → Derives left (.expression l) → Derives right (.term r) →
      Derives (left ++ ⟨t, i⟩ :: right) (.expression (.binary op l r))
  | wildcard (i : Nat) : Derives [⟨.symbol .star, i⟩] (.argument .wildcard)
  | argument {tokens : List Placed} {e : Expr} :
      Derives tokens (.expression e) → Derives tokens (.argument e)
  | lastArgument {tokens : List Placed} {e : Expr} :
      Derives tokens (.argument e) → Derives tokens (.arguments [e])
  | moreArguments (i : Nat) {first others : List Placed} {e : Expr} {es : List Expr} :
      Derives first (.argument e) → Derives others (.arguments es) →
      Derives (first ++ ⟨.symbol .comma, i⟩ :: others) (.arguments (e :: es))

/-! ## §2 The ends of a phrase -/

/-- May an operand begin with the word? -/
def beginsOperand : Token → Bool
  | .number _ | .text _ | .name _ => true
  | .symbol .leftParen | .symbol .leftBrace | .symbol .minus => true
  | _ => false

/-- May an operand end with the word? -/
def endsOperand : Token → Bool
  | .number _ | .text _ | .symbol .rightParen | .symbol .rightBrace => true
  | _ => false

/-- May a phrase begin with the word? Only an argument may begin with a star. -/
def Phrase.Begins : Phrase → Token → Prop
  | .factor _, t | .term _, t | .expression _, t => beginsOperand t = true
  | .argument _, t | .arguments _, t => beginsOperand t = true ∨ t = .symbol .star

/-- A phrase has a first word, and it is one that such a phrase may begin with. -/
theorem Derives.exists_cons {tokens : List Placed} {p : Phrase} (h : Derives tokens p) :
    ∃ t rest, tokens = t :: rest ∧ p.Begins t.token := by
  -- The first token of a phrase is that of its leftmost part.
  induction h with
  | number | text | reference | emptyCall | call | parens | negate =>
    exact ⟨_, _, rfl, rfl⟩
  | factor _ ih | term _ ih => exact ih
  | product i _ _ _ ihl | sum i _ _ _ ihl =>
    obtain ⟨t, rest, rfl, ht⟩ := ihl
    exact ⟨t, _, rfl, ht⟩
  | wildcard => exact ⟨_, _, rfl, .inr rfl⟩
  | argument _ ih =>
    obtain ⟨t, rest, rfl, ht⟩ := ih
    exact ⟨t, rest, rfl, .inl ht⟩
  | lastArgument _ ih => exact ih
  | moreArguments i _ _ ih =>
    obtain ⟨t, rest, rfl, ht⟩ := ih
    exact ⟨t, _, rfl, ht⟩

/-! ## §3 Operators and positions -/

theorem sumOperator?_eq_some_iff {t : Token} {op : Operator} :
    sumOperator? t = some op ↔
      t = .symbol .plus ∧ op = .add ∨ t = .symbol .minus ∧ op = .subtract := by
  cases t with
  | symbol s => cases s <;> simp [sumOperator?, eq_comm]
  | number | text | name | reference => simp [sumOperator?]

theorem productOperator?_eq_some_iff {t : Token} {op : Operator} :
    productOperator? t = some op ↔
      t = .symbol .star ∧ op = .multiply ∨ t = .symbol .slash ∧ op = .divide := by
  cases t with
  | symbol s => cases s <;> simp [productOperator?, eq_comm]
  | number | text | name | reference => simp [productOperator?]

/-! ### Words -/

@[simp] theorem words_nil : words [] = [] := rfl

@[simp] theorem words_cons (t : Token) (i : Nat) (tokens : List Placed) :
    words (⟨t, i⟩ :: tokens) = t :: words tokens := rfl

@[simp] theorem words_append (tokens others : List Placed) :
    words (tokens ++ others) = words tokens ++ words others := List.map_append

theorem words_eq_nil_iff {tokens : List Placed} : words tokens = [] ↔ tokens = [] :=
  List.map_eq_nil_iff

theorem words_eq_cons_iff {tokens : List Placed} {t : Token} {ts : List Token} :
    words tokens = t :: ts ↔ ∃ i rest, tokens = ⟨t, i⟩ :: rest ∧ words rest = ts := by
  rw [words, List.map_eq_cons_iff]
  constructor
  · rintro ⟨⟨_, i⟩, rest, rfl, rfl, rfl⟩
    exact ⟨i, rest, rfl, rfl⟩
  · rintro ⟨i, rest, rfl, rfl⟩
    exact ⟨_, rest, rfl, rfl, rfl⟩

theorem words_eq_append_iff {tokens : List Placed} {ts us : List Token} :
    words tokens = ts ++ us ↔
      ∃ first rest, tokens = first ++ rest ∧ words first = ts ∧ words rest = us :=
  List.map_eq_append_iff

/-- No rule looks at a position: a list with the same words denotes the same. -/
theorem Derives.of_words_eq {tokens others : List Placed} {p : Phrase} (h : Derives tokens p)
    (hwords : words others = words tokens) : Derives others p := by
  -- The words of a rule say how the other list falls into parts, by `words_eq_cons_iff` and
  -- `words_eq_append_iff`; only the positions are new.
  induction h generalizing others with
  | number x =>
    simp only [words_cons, words_nil, words_eq_cons_iff, words_eq_nil_iff] at hwords
    obtain ⟨i, _, rfl, rfl⟩ := hwords
    exact .number x i
  | text s =>
    simp only [words_cons, words_nil, words_eq_cons_iff, words_eq_nil_iff] at hwords
    obtain ⟨i, _, rfl, rfl⟩ := hwords
    exact .text s i
  | reference name =>
    simp only [words_cons, words_nil, words_eq_cons_iff, words_eq_nil_iff] at hwords
    obtain ⟨i, _, rfl, j, _, rfl, k, _, rfl, rfl⟩ := hwords
    exact .reference name i j k
  | emptyCall f =>
    simp only [words_cons, words_nil, words_eq_cons_iff, words_eq_nil_iff] at hwords
    obtain ⟨i, _, rfl, j, _, rfl, k, _, rfl, rfl⟩ := hwords
    exact .emptyCall f i j k
  | call f _ _ _ _ ih =>
    simp only [words_cons, words_append, words_nil, words_eq_cons_iff, words_eq_append_iff,
      words_eq_nil_iff] at hwords
    obtain ⟨i, _, rfl, j, _, rfl, args, _, rfl, hargs, k, _, rfl, rfl⟩ := hwords
    exact .call f i j k (ih hargs)
  | parens _ _ _ ih =>
    simp only [words_cons, words_append, words_nil, words_eq_cons_iff, words_eq_append_iff,
      words_eq_nil_iff] at hwords
    obtain ⟨i, _, rfl, inner, _, rfl, hinner, j, _, rfl, rfl⟩ := hwords
    exact .parens i j (ih hinner)
  | negate _ _ ih =>
    rw [words_cons, words_eq_cons_iff] at hwords
    obtain ⟨i, operand, rfl, hoperand⟩ := hwords
    exact .negate i (ih hoperand)
  | factor _ ih => exact .factor (ih hwords)
  | term _ ih => exact .term (ih hwords)
  | argument _ ih => exact .argument (ih hwords)
  | lastArgument _ ih => exact .lastArgument (ih hwords)
  | wildcard =>
    simp only [words_cons, words_nil, words_eq_cons_iff, words_eq_nil_iff] at hwords
    obtain ⟨i, _, rfl, rfl⟩ := hwords
    exact .wildcard i
  | product _ hop _ _ ihl ihr =>
    simp only [words_append, words_cons, words_eq_append_iff, words_eq_cons_iff] at hwords
    obtain ⟨left, _, rfl, hleft, i, right, rfl, hright⟩ := hwords
    exact .product i hop (ihl hleft) (ihr hright)
  | sum _ hop _ _ ihl ihr =>
    simp only [words_append, words_cons, words_eq_append_iff, words_eq_cons_iff] at hwords
    obtain ⟨left, _, rfl, hleft, i, right, rfl, hright⟩ := hwords
    exact .sum i hop (ihl hleft) (ihr hright)
  | moreArguments _ _ _ ihfirst ihothers =>
    simp only [words_append, words_cons, words_eq_append_iff, words_eq_cons_iff] at hwords
    obtain ⟨first, _, rfl, hfirst, i, others, rfl, hothers⟩ := hwords
    exact .moreArguments i (ihfirst hfirst) (ihothers hothers)

end BandedReport.Formula
