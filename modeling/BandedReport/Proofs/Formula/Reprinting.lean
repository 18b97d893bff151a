import BandedReport.Proofs.Decimal.Sign
import BandedReport.Proofs.Formula.Tree
import BandedReport.Proofs.Formula.Writing

/-!
# Printing and parsing back

The text of a tree is parsed to the same tree, but for literals that have no form of their own: a
negative number becomes a negation, and a text with both kinds of quotes becomes a sum of its
pieces. This changes no value.
-/

namespace BandedReport.Formula

/-! ## §1 Literals without a form of their own -/

/-- Does the text hold quotes of both kinds? -/
def hasBothQuotes (chars : List Char) : Bool := chars.contains '"' && chars.contains '\''

namespace Expr

/-- A sum of texts with double quotes between them, from left to right. -/
def joinedByQuotes (first : Expr) (pieces : List (List Char)) : Expr :=
  pieces.foldl (fun e piece =>
    binary .add (binary .add e (text "\"")) (text (String.ofList piece))) first

/-- What is read back where a text literal is printed. -/
def desugarText (chars : List Char) : Expr :=
  if hasBothQuotes chars then
    match piecesAtQuotes chars with
    | piece :: pieces => joinedByQuotes (text (String.ofList piece)) pieces
    | [] => text ""
  else text (String.ofList chars)

/-- What is read back where the expression is printed. -/
def desugar : Expr → Expr
  | literal (.number x) => if x < 0.0 then negate (number x.abs) else number x
  | literal (.text s) => desugarText s.toList
  | literal value => literal value
  | reference name => reference name
  | wildcard => wildcard
  | negate e => negate e.desugar
  | binary op l r => binary op l.desugar r.desugar
  | call f args => call f (desugarAll args)
where
  /-- What is read back of a list of arguments. -/
  desugarAll : List Expr → List Expr
    | [] => []
    | e :: es => e.desugar :: desugarAll es

theorem desugarAll_eq_map (args : List Expr) : desugar.desugarAll args = args.map desugar := by
  induction args with
  | nil => rfl
  | cons e es ih => rw [desugar.desugarAll, ih, List.map_cons]

/-- The literals in an expression. -/
def literals : Expr → List Scalar
  | literal value => [value]
  | reference _ | wildcard => []
  | negate e => e.literals
  | binary _ l r => l.literals ++ r.literals
  | call _ args => allLiterals args
where
  /-- The literals in a list of arguments. -/
  allLiterals : List Expr → List Scalar
    | [] => []
    | e :: es => e.literals ++ allLiterals es

theorem allLiterals_eq_flatMap (args : List Expr) :
    literals.allLiterals args = args.flatMap literals := by
  induction args with
  | nil => rfl
  | cons e es ih => rw [literals.allLiterals, ih, List.flatMap_cons]

theorem mem_literals_call {f : String} {args : List Expr} {v : Scalar} :
    v ∈ (call f args).literals ↔ ∃ a ∈ args, v ∈ a.literals := by
  rw [literals, allLiterals_eq_flatMap, List.mem_flatMap]

/-- The literal has a form of its own: it is neither a negative number nor a text with quotes of
both kinds. -/
def HasForm : Scalar → Prop
  | .number x => ¬ x < 0.0
  | .text s => hasBothQuotes s.toList = false
  | _ => True

/-- Where every literal has a form of its own, nothing changes. -/
theorem desugar_eq_self {e : Expr} (h : ∀ v ∈ e.literals, HasForm v) : e.desugar = e := by
  induction e with
  | literal value =>
    have hform : HasForm value := h value List.mem_cons_self
    -- A text has one kind of quotes at most, so it is not taken apart.
    cases value with
    | number x => exact if_neg hform
    | text s =>
      have hquotes : hasBothQuotes s.toList = false := hform
      rw [desugar, desugarText, hquotes, if_neg Bool.false_ne_true, String.ofList_toList]
      rfl
    | null | boolean | date => rfl
  | reference | wildcard => rfl
  | negate e ih => rw [desugar, ih h]
  | binary op l r ihl ihr =>
    obtain ⟨hl, hr⟩ := List.forall_mem_append.mp h
    rw [desugar, ihl hl, ihr hr]
  | call f args ih =>
    -- The arguments stay as they are, each by its own literals.
    have hargs : args.map desugar = args.map id :=
      List.map_congr_left fun a ha => ih a ha fun v hv => h v (mem_literals_call.mpr ⟨a, ha, hv⟩)
    rw [desugar, desugarAll_eq_map, hargs, List.map_id]

end Expr

/-! ## §2 Pieces of a text -/

/-- The pieces of a text have no double quotes, and with double quotes between them they are the
text. -/
theorem exists_piecesAtQuotes_eq_cons (chars : List Char) : ∃ piece pieces,
    piecesAtQuotes chars = piece :: pieces ∧ piece ++ pieces.flatMap ('"' :: ·) = chars ∧
      ∀ q ∈ piece :: pieces, ∀ c ∈ q, c ≠ '"' := by
  induction chars with
  | nil => exact ⟨[], [], rfl, rfl, by simp⟩
  | cons c rest ih =>
    obtain ⟨piece, pieces, hpieces, hjoin, hquotes⟩ := ih
    -- A quote ends a piece that is still empty, and the pieces behind it are kept.
    by_cases hc : c = '"'
    · subst hc
      refine ⟨[], piece :: pieces, ?_, ?_, ?_⟩
      · rw [piecesAtQuotes, if_pos (beq_self_eq_true _), hpieces]
      · rw [List.nil_append, List.flatMap_cons, List.cons_append, hjoin]
      · exact List.forall_mem_cons.mpr ⟨nofun, hquotes⟩
    · -- Any other character is put in front of the first piece.
      refine ⟨c :: piece, pieces, ?_, ?_, ?_⟩
      · rw [piecesAtQuotes, if_neg (by simpa using hc), hpieces]
      · rw [List.cons_append, hjoin]
      · obtain ⟨hpiece, hrest⟩ := List.forall_mem_cons.mp hquotes
        exact List.forall_mem_cons.mpr ⟨List.forall_mem_cons.mpr ⟨hc, hpiece⟩, hrest⟩

theorem quoteJoint_eq : quoteJoint = [' ', '+', ' ', '\'', '"', '\'', ' ', '+', ' '] := by
  decide

theorem joinPieces_cons (piece : List Char) (pieces : List (List Char)) :
    joinPieces (piece :: pieces) =
      doubleQuoted piece ++ pieces.flatMap fun q => quoteJoint ++ doubleQuoted q := by
  induction pieces generalizing piece with
  | nil => rw [joinPieces, List.flatMap_nil, List.append_nil]
  | cons q rest ih =>
    rw [joinPieces, ih, List.flatMap_cons, List.append_assoc, List.append_assoc]
    exact nofun

/-! ## §3 Values -/

variable {r : Registry} {ctx : Context}

namespace Expr

theorem evaluate_add_texts {e e' : Expr} {s t : List Char}
    (h : e.evaluate r ctx = .ok (.text (String.ofList s)))
    (h' : e'.evaluate r ctx = .ok (.text (String.ofList t))) :
    (binary .add e e').evaluate r ctx = .ok (.text (String.ofList (s ++ t))) := by
  rw [evaluate, h, h']
  show Operator.apply .add (.text (String.ofList s)) (.text (String.ofList t)) = _
  rw [Operator.apply, if_pos (by simp [isText])]
  simp only [Scalar.displayChars, String.toList_ofList]

/-- A sum of texts joins them. -/
theorem evaluate_joinedByQuotes {first : Expr} {piece : List Char} (pieces : List (List Char))
    (h : first.evaluate r ctx = .ok (.text (String.ofList piece))) :
    (joinedByQuotes first pieces).evaluate r ctx =
      .ok (.text (String.ofList (piece ++ pieces.flatMap ('"' :: ·)))) := by
  induction pieces generalizing first piece with
  | nil => rw [List.flatMap_nil, List.append_nil]; exact h
  | cons q rest ih =>
    have hquote : (text "\"").evaluate r ctx = .ok (.text (String.ofList ['"'])) := rfl
    have hq : (text (String.ofList q)).evaluate r ctx = .ok (.text (String.ofList q)) := rfl
    have hsum := ih (evaluate_add_texts (evaluate_add_texts h hquote) hq)
    rw [List.append_assoc, List.append_assoc] at hsum
    rw [List.flatMap_cons]
    exact hsum

theorem evaluate_desugarText (chars : List Char) :
    (desugarText chars).evaluate r ctx = .ok (.text (String.ofList chars)) := by
  rw [desugarText]
  split
  · obtain ⟨piece, pieces, hpieces, hjoin, -⟩ := exists_piecesAtQuotes_eq_cons chars
    rw [hpieces]
    have hfirst : (text (String.ofList piece)).evaluate r ctx =
        .ok (.text (String.ofList piece)) := rfl
    rw [evaluate_joinedByQuotes pieces hfirst, hjoin]
  · rfl

theorem isWildcard_joinedByQuotes {first : Expr} (h : first.isWildcard = false)
    (pieces : List (List Char)) : (joinedByQuotes first pieces).isWildcard = false := by
  induction pieces generalizing first with
  | nil => exact h
  | cons q rest ih => exact ih rfl

theorem isWildcard_desugarText (chars : List Char) : (desugarText chars).isWildcard = false := by
  rw [desugarText]
  split
  · split
    · exact isWildcard_joinedByQuotes rfl _
    · rfl
  · rfl

theorem isWildcard_desugar (e : Expr) : e.desugar.isWildcard = e.isWildcard := by
  cases e with
  | literal value =>
    cases value with
    | number x =>
      rw [desugar]
      split <;> rfl
    | text s => exact isWildcard_desugarText s.toList
    | null | boolean | date => rfl
  | reference | wildcard | negate | binary | call => rfl

/-- What is read back has the same value, or the same error, in every context. -/
theorem evaluate_desugar (e : Expr) : e.desugar.evaluate r ctx = e.evaluate r ctx := by
  induction e generalizing ctx with
  | literal value =>
    -- A negative number becomes the negation of its magnitude, and a text with both kinds of quotes
    -- a sum of texts.
    cases value with
    | number x =>
      rw [desugar]
      split
      · rename_i hx
        show Except.ok (Scalar.number (-x.abs)) = _
        rw [neg_abs_of_lt_zero hx]
        rfl
      · rfl
    | text s =>
      rw [desugar, evaluate_desugarText, String.ofList_toList]
      rfl
    | null | boolean | date => rfl
  | reference | wildcard => rfl
  | negate e ih => rw [desugar, evaluate, evaluate, ih]
  | binary op left right ihl ihr => rw [desugar, evaluate, evaluate, ihl, ihr]
  | call f args ih =>
    -- A function sees of an argument whether it is a star, and its value in any context.
    have hargs : (args.map desugar).map (toArgument r) = args.map (toArgument r) := by
      rw [List.map_map]
      refine List.map_congr_left fun a ha => ?_
      have hvalue : (fun ctx => a.desugar.evaluate r ctx) = fun ctx => a.evaluate r ctx :=
        funext fun _ => ih a ha
      show toArgument r a.desugar = toArgument r a
      rw [toArgument, toArgument, isWildcard_desugar, hvalue]
    rw [desugar, evaluate, evaluate, desugarAll_eq_map, arguments_eq_map, arguments_eq_map, hargs]

end Expr

/-! ## §4 Texts of trees -/

/-- The trees that are parsed back from their text. Literals are texts and finite numbers but for
negative zero, names can stand between braces, functions have names a formula may use, and stars
are arguments. -/
inductive Expr.Printable : Expr → Prop where
  | text (s : String) : Printable (.text s)
  | number {x : Float} : x.isFinite = true → x ≠ -0.0 → Printable (.number x)
  | reference {name : String} : name.toList ≠ [] → (∀ c ∈ name.toList, isBrace c = false) →
      trimChars name.toList = name.toList → Printable (.reference name)
  | negate {e : Expr} : Printable e → Printable (.negate e)
  | binary (op : Operator) {l r : Expr} :
      Printable l → Printable r → Printable (.binary op l r)
  | call {f : String} {args : List Expr} : isIdentifier f.toList = true →
      (∀ a ∈ args, a ≠ .wildcard → Printable a) → Printable (.call f args)

/-- The digits printed for a number are read as that number. -/
def ReadsBack (x : Float) : Prop := literalValue (formatNumberChars x) = x

/-- How tightly the outermost operation of an expression binds. -/
def Expr.rank : Expr → Nat
  | binary op _ _ => op.precedence
  | _ => 3

/-- The phrase that an expression of a rank is. -/
def Phrase.ofRank : Nat → Expr → Phrase
  | 1 => .expression
  | 2 => .term
  | _ => .factor

namespace Written

/-- What binds tightly may stand where something looser is asked for. -/
theorem lower {chars : List Char} {e : Expr} {rank : Nat} (h : Written chars (.ofRank rank e))
    (low : Nat) (hrank : low ≤ rank) (hmax : rank ≤ 3) (hlow : 1 ≤ low) :
    Written chars (.ofRank low e) := by
  -- Either nothing changes, or the phrase is loosened once or twice.
  have hcases : low = rank ∨ low = 1 ∧ rank = 2 ∨ low = 1 ∧ rank = 3 ∨ low = 2 ∧ rank = 3 := by
    omega
  rcases hcases with rfl | ⟨rfl, rfl⟩ | ⟨rfl, rfl⟩ | ⟨rfl, rfl⟩
  · exact h
  · exact Written.expression h
  · exact (Written.term h).expression
  · exact Written.term h

theorem precedence_le (op : Operator) : 1 ≤ op.precedence ∧ op.precedence ≤ 2 := by
  cases op <;> decide

theorem rank_le (e : Expr) : 1 ≤ e.rank ∧ e.rank ≤ 3 := by
  cases e with
  | binary op l r =>
    obtain ⟨hlow, hhigh⟩ := precedence_le op
    exact ⟨hlow, Nat.le_succ_of_le hhigh⟩
  | literal | reference | wildcard | negate | call =>
    exact ⟨Nat.le_add_left 1 2, Nat.le_refl 3⟩

/-- Parentheses stand where an operand binds less tightly than its place asks for. -/
theorem needsParens_iff (op : Operator) (isRight : Bool) (e : Expr) :
    e.needsParens op.precedence isRight = true ↔ e.rank < op.precedence + isRight.toNat := by
  have hop := precedence_le op
  cases e with
  | binary op' l r =>
    cases isRight <;> simp [Expr.needsParens, Expr.rank, Bool.toNat]
    omega
  | literal | reference | wildcard | negate | call =>
    cases isRight <;> simp [Expr.needsParens, Expr.rank, Bool.toNat] <;> omega

/-- The text of an operand, in parentheses where it needs them. -/
theorem operand {chars : List Char} {e d : Expr} (h : Written chars (.ofRank e.rank d))
    (op : Operator) (isRight : Bool) :
    Written (if e.needsParens op.precedence isRight then parenthesized chars else chars)
      (.ofRank (op.precedence + isRight.toNat) d) := by
  obtain ⟨hrank, hmax⟩ := rank_le e
  have hop := precedence_le op
  have hright : isRight.toNat ≤ 1 := Bool.toNat_le isRight
  -- Parentheses make a factor of any expression, and a factor may stand anywhere.
  split
  · have hparens : Written (parenthesized chars) (.ofRank 3 d) :=
      Written.parens (h.lower 1 hrank hmax (Nat.le_refl 1))
    exact hparens.lower _ (by omega) (Nat.le_refl 3) (by omega)
  · rename_i hneeds
    rw [needsParens_iff, Nat.not_lt] at hneeds
    exact h.lower _ hneeds hmax (by omega)

/-- The text of an operation. -/
theorem binary {left right : List Char} {l r : Expr} (op : Operator)
    (hl : Written left (.ofRank op.precedence l))
    (hr : Written right (.ofRank (op.precedence + 1) r)) :
    Written (left ++ ' ' :: op.sign :: ' ' :: right)
      (.ofRank op.precedence (.binary op l r)) := by
  cases op with
  | add => exact Written.sum (s := .plus) rfl hl hr
  | subtract => exact Written.sum (s := .minus) rfl hl hr
  | multiply => exact Written.product (s := .star) rfl hl hr
  | divide => exact Written.product (s := .slash) rfl hl hr

/-! ### Texts -/

theorem doubleQuoted {chars : List Char} (h : ∀ c ∈ chars, c ≠ '"') :
    Written (doubleQuoted chars) (.factor (.text (String.ofList chars))) :=
  Written.text rfl h

/-- A sum of pieces of a text. -/
theorem joinedByQuotes {chars : List Char} {first : Expr} {pieces : List (List Char)}
    (h : Written chars (.expression first)) (hpieces : ∀ q ∈ pieces, ∀ c ∈ q, c ≠ '"') :
    Written (chars ++ pieces.flatMap fun q => quoteJoint ++ Formula.doubleQuoted q)
      (.expression (Expr.joinedByQuotes first pieces)) := by
  induction pieces generalizing chars first with
  | nil => rwa [List.flatMap_nil, List.append_nil]
  | cons q rest ih =>
    obtain ⟨hq, hrest⟩ := List.forall_mem_cons.mp hpieces
    -- The quote itself is written between quotes of the other kind.
    have hquote : Written ('\'' :: (['"'] ++ ['\''])) (.factor (.text (String.ofList ['"']))) :=
      Written.text rfl (List.forall_mem_singleton.mpr (by decide))
    have hjoint := Written.sum (s := .plus) rfl h hquote.term
    have hpiece := Written.sum (s := .plus) rfl hjoint (doubleQuoted hq).term
    have hmore : Written _ (.expression (Expr.joinedByQuotes first (q :: rest))) :=
      ih hpiece hrest
    simpa only [List.flatMap_cons, quoteJoint_eq, Symbol.char, List.append_assoc,
      List.cons_append, List.nil_append] using hmore

/-- The literal of a text. -/
theorem textLiteral (chars : List Char) :
    Written (textLiteral chars) (.factor (Expr.desugarText chars)) := by
  rw [Formula.textLiteral, Expr.desugarText, hasBothQuotes]
  -- Which quotes are written depends on those that the text has.
  cases hdouble : chars.contains '"' with
  | false =>
    have hnone : ∀ c ∈ chars, c ≠ '"' := by
      rintro c hc rfl
      simp [hc] at hdouble
    exact doubleQuoted hnone
  | true =>
    cases hsingle : chars.contains '\'' with
    | false =>
      have hnone : ∀ c ∈ chars, c ≠ '\'' := by
        rintro c hc rfl
        simp [hc] at hsingle
      exact Written.text rfl hnone
    | true =>
      -- With both kinds, the pieces between the quotes are joined by sums in parentheses.
      obtain ⟨piece, pieces, hpieces, -, hquotes⟩ := exists_piecesAtQuotes_eq_cons chars
      obtain ⟨hpiece, hrest⟩ := List.forall_mem_cons.mp hquotes
      have hsum := joinedByQuotes (doubleQuoted hpiece).term.expression hrest
      rw [← joinPieces_cons] at hsum
      simp only [hpieces]
      exact hsum.parens

/-- The text of a number that is finite and not negative zero. -/
theorem numberLiteral {x : Float} (hfinite : x.isFinite = true) (hzero : x ≠ -0.0)
    (hread : ReadsBack x.abs) :
    Written (formatNumberChars x) (.factor (Expr.number x).desugar) := by
  have habs : Written (formatNumberChars x.abs) (.factor (.number x.abs)) := by
    have hnumber := Written.number (numeral_formatNumberChars_abs hfinite)
    rwa [hread] at hnumber
  show Written _ (.factor (if x < 0.0 then Expr.negate (.number x.abs) else .number x))
  split
  · rename_i hneg
    rw [formatNumberChars_of_lt_zero hfinite hneg]
    exact habs.negate
  · rename_i hneg
    rwa [abs_of_not_lt_zero hneg hzero] at habs

/-! ### Arguments -/

theorem argChars {args : List Expr} (hne : args ≠ [])
    (h : ∀ a ∈ args, Written a.chars (.argument a.desugar)) :
    Written (Expr.chars.argChars args) (.arguments (args.map Expr.desugar)) := by
  induction args with
  | nil => exact absurd rfl hne
  | cons a rest ih =>
    obtain ⟨ha, hrest⟩ := List.forall_mem_cons.mp h
    cases rest with
    | nil => exact ha.lastArgument
    | cons b others =>
      have hothers := ih (List.cons_ne_nil b others) hrest
      exact ha.moreArguments hothers

end Written

namespace Expr

/-- **The text of a tree is a phrase of the tree.** The phrase is as tight as the outermost
operation of the tree, and its tree has the literals that are read back. -/
theorem Printable.written {e : Expr} (h : e.Printable)
    (hread : ∀ x, .number x ∈ e.literals → ReadsBack x.abs) :
    Written e.chars (.ofRank e.rank e.desugar) := by
  induction e with
  | literal value =>
    -- A literal is printed as a text or as a number without its sign.
    cases h with
    | text s => exact Written.textLiteral s.toList
    | number hfinite hzero =>
      exact Written.numberLiteral hfinite hzero (hread _ List.mem_cons_self)
  | reference name =>
    cases h with
    | reference hne hbraces htrim =>
      have hname := Written.reference hne hbraces htrim
      rwa [String.ofList_toList] at hname
  | wildcard => cases h
  | negate e ih =>
    cases h with
    | negate he =>
      have hwritten := ih he hread
      obtain ⟨hrank, hmax⟩ := Written.rank_le e
      rw [chars]
      -- Only a binary operation binds less tightly than a negation and gets parentheses.
      cases hbinary : e.isBinary with
      | true => exact (hwritten.lower 1 hrank hmax (Nat.le_refl 1)).parens.negate
      | false =>
        have hfactor : e.rank = 3 := by
          cases e <;> first | rfl | cases hbinary
        rw [hfactor] at hwritten
        exact Written.negate hwritten
  | binary op l r ihl ihr =>
    cases h with
    | binary _ hl hr =>
      -- Each operand has the parentheses that its side asks for.
      have hleft := ihl hl fun x hx => hread x (List.mem_append_left _ hx)
      have hright := ihr hr fun x hx => hread x (List.mem_append_right _ hx)
      exact Written.binary op (hleft.operand op false) (hright.operand op true)
  | call f args ih =>
    cases h with
    | call hf hargs =>
      -- A star is written as it is, and any other argument as an expression.
      have harg : ∀ a ∈ args, Written a.chars (.argument a.desugar) := by
        intro a ha
        by_cases hstar : a = .wildcard
        · subst hstar
          exact Written.wildcard
        · have hwritten := ih a ha (hargs a ha hstar) fun x hx =>
            hread x (mem_literals_call.mpr ⟨a, ha, hx⟩)
          obtain ⟨hrank, hmax⟩ := Written.rank_le a
          exact Written.argument (hwritten.lower 1 hrank hmax (Nat.le_refl 1))
      rw [desugar, desugarAll_eq_map, chars]
      cases args with
      | nil =>
        have hcall := Written.emptyCall hf
        rwa [String.ofList_toList] at hcall
      | cons a rest =>
        have hcall := Written.call hf (Written.argChars (List.cons_ne_nil a rest) harg)
        rwa [String.ofList_toList] at hcall

end Expr

/-! ## §5 Parsing back -/

/-- The text of a tree is parsed to what is read back of it. -/
theorem Expr.Printable.parse_toText {e : Expr} (h : e.Printable)
    (hread : ∀ x, .number x ∈ e.literals → ReadsBack x.abs) :
    Expr.parse e.toText = .ok e.desugar := by
  obtain ⟨hrank, hmax⟩ := Written.rank_le e
  exact Written.parse_eq ((h.written hread).lower 1 hrank hmax (Nat.le_refl 1))

/-- **Printing and parsing back.** The text of a printable tree, the numbers of which are read
back from their digits, is parsed to the tree with its literals in the forms they are read in. This
is the tree itself where every literal has a form of its own, and it has the same value or the same
error in every context. -/
theorem parse_printed (e : Expr) (hprintable : e.Printable)
    (hread : ∀ x, .number x ∈ e.literals → ReadsBack x.abs) :
    Expr.parse e.toText = .ok e.desugar ∧
      ((∀ v ∈ e.literals, Expr.HasForm v) → e.desugar = e) ∧
      ∀ r ctx, e.desugar.evaluate r ctx = e.evaluate r ctx :=
  ⟨hprintable.parse_toText hread, Expr.desugar_eq_self, fun _ _ => Expr.evaluate_desugar e⟩

/-- A tree with a negative number, a text with a quote and a star. -/
private def discount : Expr :=
  .binary .multiply (.number (-2.5))
    (.call "SUM" [.binary .add (.reference "price") (.text "\""), .wildcard])

private theorem discount_printable : discount.Printable := by
  have hargs : ∀ a ∈ [.binary .add (.reference "price") (.text "\""), .wildcard],
      a ≠ Expr.wildcard → a.Printable := by
    intro a ha hstar
    simp only [List.mem_cons, List.not_mem_nil, or_false] at ha
    rcases ha with rfl | rfl
    · have hprice : (Expr.reference "price").Printable :=
        .reference (by decide) (by simp [isBrace]) (by decide +kernel)
      exact .binary .add hprice (.text "\"")
    · exact absurd rfl hstar
  exact .binary .multiply (.number (by decide +kernel) (by decide +kernel))
    (.call (by decide +kernel) hargs)

private theorem discount_readsBack (x : Float) (hx : .number x ∈ discount.literals) :
    ReadsBack x.abs := by
  have hliterals : discount.literals = [.number (-2.5), .text "\""] := rfl
  obtain rfl : x = -2.5 := by simpa [hliterals] using hx
  show literalValue _ = _
  decide +kernel

theorem parse_printed_discount :
    Expr.parse "-2.5 * SUM(\x7bprice\x7d + '\"', *)" =
      .ok (.binary .multiply (.negate (.number 2.5))
        (.call "SUM" [.binary .add (.reference "price") (.text "\""), .wildcard])) := by
  have hparse := (parse_printed discount discount_printable discount_readsBack).1
  have htext : discount.toText = "-2.5 * SUM(\x7bprice\x7d + '\"', *)" := by decide +kernel
  have hneg : (-2.5 : Float) < 0.0 := by decide +kernel
  have habs : (-2.5 : Float).abs = 2.5 := by decide +kernel
  have hnumber : (Expr.number (-2.5)).desugar = .negate (.number 2.5) := by
    rw [Expr.number, Expr.desugar, if_pos hneg, habs]
  rw [htext] at hparse
  rw [hparse, discount, Expr.desugar, hnumber]
  rfl

end BandedReport.Formula
