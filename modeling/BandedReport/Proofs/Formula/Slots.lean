import BandedReport.Proofs.Formula.Grammar
import BandedReport.Proofs.Formula.Tree

/-!
# Argument slots of a derived formula

On tokens that derive a tree, the check of argument slots amounts to two conditions on the tree:
its stars are placed as they should be, and no function that needs arguments is called without any.

The check walks over the tokens with the word before and the open calls. After a phrase it stands
where it stood before, but for the word before; the statements below quantify over that word.
-/

namespace BandedReport.Formula

variable {r : Registry}

/-- No function that needs arguments is called without any. -/
def Expr.NoneMissing (r : Registry) (e : Expr) : Prop :=
  ∀ c ∈ e.calls, c.2 = 0 → ((r.get? c.1).any fun d => 0 < d.arity.min) = false

namespace Expr

theorem noneMissing_of_callsAccepted {e : Expr} (h : e.CallsAccepted r) : e.NoneMissing r := by
  rintro ⟨f, n⟩ hc rfl
  obtain ⟨d, hd, haccepts⟩ := h _ hc
  have hmin : d.arity.min = 0 := by
    simp only [Arity.accepts, Bool.and_eq_true, decide_eq_true_eq] at haccepts
    exact Nat.le_zero.mp haccepts.1
  simp [hd, hmin]

theorem noneMissing_binary {op : Operator} {left right : Expr} :
    (binary op left right).NoneMissing r ↔ left.NoneMissing r ∧ right.NoneMissing r :=
  List.forall_mem_append

theorem noneMissing_call {f : String} {args : List Expr} :
    (call f args).NoneMissing r ↔
      (args = [] → ((r.get? f).any fun d => 0 < d.arity.min) = false) ∧
        ∀ a ∈ args, a.NoneMissing r := by
  simp only [NoneMissing, calls, allCalls_eq_flatMap, List.forall_mem_cons, List.mem_flatMap,
    List.length_eq_zero_iff]
  refine and_congr_right fun _ => ?_
  constructor
  · exact fun h a ha c hc => h c ⟨a, ha, hc⟩
  · rintro h c ⟨a, ha, hc⟩
    exact h a ha c hc

end Expr

/-! ## §1 The check after each kind of word -/

/-- The check passes from a word onwards. -/
abbrev SlotsPass (r : Registry) (previous : Option Token) (calls : List (Option String))
    (tokens : List Placed) : Prop :=
  checkArgumentsFrom r previous calls tokens = .ok ()

variable {previous : Option Token} {calls : List (Option String)} {tokens : List Placed}
  {i : Nat}

/-- The word is no function name. -/
def NoName (previous : Option Token) : Prop := ∀ f, previous ≠ some (.name f)

/-- A parenthesis behind a name belongs to the function of that name. -/
theorem slotsPass_callParen {f : String} :
    SlotsPass r (some (.name f)) calls (⟨.symbol .leftParen, i⟩ :: tokens) ↔
      checkOpening r (some f) (nextToken tokens) i = .ok () ∧
        SlotsPass r (some (.symbol .leftParen)) (some f :: calls) tokens := by
  rw [SlotsPass, checkArgumentsFrom]
  cases checkOpening r (some f) (nextToken tokens) i <;> simp

/-- A parenthesis behind any other word belongs to no function. -/
theorem slotsPass_leftParen (h : NoName previous) :
    SlotsPass r previous calls (⟨.symbol .leftParen, i⟩ :: tokens) ↔
      checkOpening r none (nextToken tokens) i = .ok () ∧
        SlotsPass r (some (.symbol .leftParen)) (none :: calls) tokens := by
  rw [SlotsPass, checkArgumentsFrom]
  · cases checkOpening r none (nextToken tokens) i <;> simp
  · exact h

theorem slotsPass_comma :
    SlotsPass r previous calls (⟨.symbol .comma, i⟩ :: tokens) ↔
      checkComma calls (nextToken tokens) i = .ok () ∧
        SlotsPass r (some (.symbol .comma)) calls tokens := by
  rw [SlotsPass, checkArgumentsFrom]
  cases checkComma calls (nextToken tokens) i <;> simp

theorem slotsPass_star :
    SlotsPass r previous calls (⟨.symbol .star, i⟩ :: tokens) ↔
      checkStar calls previous (nextToken tokens) i = .ok () ∧
        SlotsPass r (some (.symbol .star)) calls tokens := by
  rw [SlotsPass, checkArgumentsFrom]
  cases checkStar calls previous (nextToken tokens) i <;> simp

/-! ## §2 What is found at the ends of a phrase -/

theorem endsArgument_of_begins {p : Phrase} {t : Token} (h : p.Begins t) :
    endsArgument (some t) = false := by
  cases t with
  | symbol s => cases s <;> cases p <;> simp_all [Phrase.Begins, beginsOperand, endsArgument,
      Token.isSymbol]
  | number | text | name | reference => rfl

/-- Where a phrase begins, a slot is not empty. -/
theorem Derives.endsArgument_nextToken {p : Phrase} (h : Derives tokens p) (rest : List Placed) :
    endsArgument (nextToken (tokens ++ rest)) = false := by
  obtain ⟨t, tail, rfl, ht⟩ := h.exists_cons
  exact endsArgument_of_begins ht

theorem checkOpening_eq_ok {function : Option String} {next : Option Token}
    (h : endsArgument next = false) : checkOpening r function next i = .ok () := by
  cases next with
  | none => cases h
  | some t =>
    simp only [endsArgument, Bool.or_eq_false_iff] at h
    cases function <;> simp [checkOpening, h]

theorem checkComma_eq_ok {f : String} {outer : List (Option String)} {next : Option Token}
    (h : endsArgument next = false) : checkComma (some f :: outer) next i = .ok () := by
  simp [checkComma, h]

theorem checkStar_eq_ok {next : Option Token} (h : endsArgument next = false) :
    checkStar calls previous next i = .ok () := by
  unfold checkStar isWildcardBetween
  rw [h, Bool.and_false, if_neg Bool.false_ne_true]

/-- In front of an operand an operator is never taken for a lone star. -/
theorem slotsPass_operator {t last : Token} {op : Operator} {rest : List Placed}
    (hop : productOperator? t = some op ∨ sumOperator? t = some op)
    (hnext : endsArgument (nextToken rest) = false) :
    SlotsPass r (some last) calls (⟨t, i⟩ :: rest) ↔ SlotsPass r (some t) calls rest := by
  rw [productOperator?_eq_some_iff, sumOperator?_eq_some_iff] at hop
  rcases hop with (⟨rfl, -⟩ | ⟨rfl, -⟩) | (⟨rfl, -⟩ | ⟨rfl, -⟩)
  · rw [slotsPass_star, and_iff_right (checkStar_eq_ok hnext)]
  all_goals exact Iff.rfl

theorem noName_operator {t : Token} {op : Operator}
    (hop : productOperator? t = some op ∨ sumOperator? t = some op) : NoName (some t) := by
  rintro f ⟨⟩
  rcases hop with hop | hop <;> cases hop

theorem noName_of_startsArgument {t : Token} (h : startsArgument (some t) = true) :
    NoName (some t) := by
  rintro f ⟨⟩
  cases h

/-- A star that is an argument must be the only one, of a function that counts rows. -/
theorem checkStar_argument {f : String} {outer : List (Option String)} {t : Token}
    {rest : List Placed} (hstart : startsArgument (some t) = true)
    (hend : atArgumentEnd rest = true) :
    checkStar (some f :: outer) (some t) (nextToken rest) i = .ok () ↔
      f ∈ wildcardFunctions ∧ t = .symbol .leftParen ∧
        nextToken rest = some (.symbol .rightParen) := by
  rw [atArgumentEnd.eq_def] at hend
  rw [checkStar, isWildcardBetween, hstart]
  -- A star begins an argument, so only its end has to be looked at.
  cases t with
  | symbol s =>
    split at hend
    · simp [nextToken, endsArgument, Token.isSymbol]
    · cases s <;> simp_all [nextToken, endsArgument, startsArgument, Token.isSymbol]
    · cases hend
  | number | text | name | reference => cases hstart

theorem Derives.arguments_ne_nil {es : List Expr} (h : Derives tokens (.arguments es)) :
    es ≠ [] := by
  cases h <;> exact nofun

/-- The phrase is no lone star. -/
def Phrase.NoStar : Phrase → Prop
  | .factor e | .term e | .expression e => e ≠ .wildcard
  | .argument _ | .arguments _ => True

theorem Derives.noStar {p : Phrase} (h : Derives tokens p) : p.NoStar := by
  induction h with
  | number | text | reference | emptyCall | call | negate | product | sum => exact nofun
  | parens _ _ _ ih | factor _ ih | term _ ih => exact ih
  | wildcard | argument | lastArgument | moreArguments => trivial

/-! ## §3 The check over a phrase -/

/-- What the check of slots amounts to over the tokens of a phrase, for any continuation whose
outcome `R` does not hang on the last word of the phrase. -/
def SlotsOver (r : Registry) (tokens : List Placed) : Phrase → Prop
  | .factor e | .term e | .expression e => ∀ previous calls rest R, NoName previous →
      (∀ last, SlotsPass r (some last) calls rest ↔ R) →
      (SlotsPass r previous calls (tokens ++ rest) ↔ e.StarsPlaced ∧ e.NoneMissing r ∧ R)
  | .argument e => ∀ previous f outer rest R, startsArgument (some previous) = true →
      atArgumentEnd rest = true →
      (∀ last, SlotsPass r (some last) (some f :: outer) rest ↔ R) →
      (SlotsPass r (some previous) (some f :: outer) (tokens ++ rest) ↔
        ((e = .wildcard ∧ f ∈ wildcardFunctions) ∧ previous = .symbol .leftParen ∧
            nextToken rest = some (.symbol .rightParen) ∨ e.StarsPlaced) ∧
          e.NoneMissing r ∧ R)
  | .arguments es => ∀ previous f outer i rest R, startsArgument (some previous) = true →
      (SlotsPass r (some (.symbol .rightParen)) outer rest ↔ R) →
      (SlotsPass r (some previous) (some f :: outer)
          (tokens ++ ⟨.symbol .rightParen, i⟩ :: rest) ↔
        ((es = [.wildcard] ∧ f ∈ wildcardFunctions) ∧ previous = .symbol .leftParen ∨
          ∀ e ∈ es, e.StarsPlaced) ∧ (∀ e ∈ es, e.NoneMissing r) ∧ R)

/-- A word, or a reference, is a tree without stars and calls. -/
theorem SlotsOver.leaf {e : Expr} (last : Token) (hstars : e.StarsPlaced)
    (hmissing : e.NoneMissing r)
    (hpass : ∀ previous calls rest, SlotsPass r previous calls (tokens ++ rest) ↔
      SlotsPass r (some last) calls rest) : SlotsOver r tokens (.factor e) := by
  intro previous calls rest R _ hrest
  rw [hpass, hrest last]
  exact ⟨fun h => ⟨hstars, hmissing, h⟩, fun h => h.2.2⟩

/-- An operation is well placed when its operands are. -/
theorem SlotsOver.operation {left right : List Placed} {l e : Expr} {t : Token} {op : Operator}
    (i : Nat) (hop : productOperator? t = some op ∨ sumOperator? t = some op)
    (hright : ∀ rest, endsArgument (nextToken (right ++ rest)) = false)
    (ihl : SlotsOver r left (.expression l)) (ihr : SlotsOver r right (.expression e)) :
    SlotsOver r (left ++ ⟨t, i⟩ :: right) (.expression (.binary op l e)) := by
  intro previous calls rest R hprevious hrest
  -- What follows the left operand is the operator, whatever its last word is.
  have hoperator : ∀ last, SlotsPass r (some last) calls (⟨t, i⟩ :: (right ++ rest)) ↔
      e.StarsPlaced ∧ e.NoneMissing r ∧ R := by
    intro last
    rw [slotsPass_operator hop (hright rest)]
    exact ihr (some t) calls rest R (noName_operator hop) hrest
  rw [List.append_assoc, List.cons_append, Expr.starsPlaced_binary, Expr.noneMissing_binary,
    ihl previous calls _ _ hprevious hoperator]
  simp only [and_assoc, and_left_comm]

theorem Derives.slotsOver {tokens : List Placed} {p : Phrase} (h : Derives tokens p) :
    SlotsOver r tokens p := by
  -- One case for each rule: the check passes its tokens exactly if stars and arguments are in order
  -- there, and the rest is passed.
  induction h with
  | number x i => exact .leaf (.number x) (.literal _) (by rintro c ⟨⟩) fun _ _ _ => Iff.rfl
  | text s i => exact .leaf (.text s) (.literal _) (by rintro c ⟨⟩) fun _ _ _ => Iff.rfl
  | reference name i j k =>
    exact .leaf (.symbol .rightBrace) (.reference _) (by rintro c ⟨⟩) fun _ _ _ => Iff.rfl
  | emptyCall f i j k =>
    intro previous calls rest R _ hrest
    -- Behind the closing parenthesis the rest is checked.
    have hpass : SlotsPass r (some (.symbol .rightParen)) calls rest ↔ R := hrest _
    -- A call without arguments is refused if its function asks for some.
    have hopening : checkOpening r (some f) (some (.symbol .rightParen)) j = .ok () ↔
        ((r.get? f).any fun d => 0 < d.arity.min) = false := by
      cases h : (r.get? f).any fun d => 0 < d.arity.min <;>
        simp [checkOpening, Token.isSymbol, h]
    calc SlotsPass r (some (.name f)) calls
          (⟨.symbol .leftParen, j⟩ :: ⟨.symbol .rightParen, k⟩ :: rest)
        ↔ _ := slotsPass_callParen
      _ ↔ _ := and_congr hopening hpass
      _ ↔ _ := by simp [Expr.starsPlaced_call, Expr.noneMissing_call]
  | @call f i j k args es hargs ih =>
    intro previous calls rest R _ hrest
    -- Behind the parenthesis the call is the innermost open one, and its arguments begin.
    have hargs' := ih (.symbol .leftParen) f calls k rest R rfl (hrest _)
    have hopening : checkOpening r (some f)
        (nextToken (args ++ ⟨.symbol .rightParen, k⟩ :: rest)) j = .ok () :=
      checkOpening_eq_ok (hargs.endsArgument_nextToken _)
    rw [List.cons_append, List.cons_append, List.append_assoc, List.singleton_append]
    calc SlotsPass r (some (.name f)) calls (⟨.symbol .leftParen, j⟩ :: _)
        ↔ _ := slotsPass_callParen
      _ ↔ _ := and_iff_right hopening
      _ ↔ _ := hargs'
      _ ↔ _ := by simp [Expr.starsPlaced_call, Expr.noneMissing_call, hargs.arguments_ne_nil]
  | @parens i j inner e hinner ih =>
    intro previous calls rest R hprevious hrest
    -- Within plain parentheses no call is the innermost one; an operand asks for none.
    have hopening : checkOpening r none
        (nextToken (inner ++ ⟨.symbol .rightParen, j⟩ :: rest)) i = .ok () :=
      checkOpening_eq_ok (hinner.endsArgument_nextToken _)
    rw [List.cons_append, List.append_assoc, List.singleton_append,
      slotsPass_leftParen hprevious, and_iff_right hopening]
    exact ih _ (none :: calls) _ R nofun fun _ => hrest _
  | negate i _ ih =>
    -- The sign leaves the innermost open call as it is.
    intro previous calls rest R _ hrest
    rw [Expr.starsPlaced_negate]
    exact ih (some (.symbol .minus)) calls rest R nofun hrest
  | factor _ ih | term _ ih => exact ih
  | product i hop _ hright ihl ihr =>
    exact SlotsOver.operation i (.inl hop) hright.endsArgument_nextToken ihl ihr
  | sum i hop _ hright ihl ihr =>
    exact SlotsOver.operation i (.inr hop) hright.endsArgument_nextToken ihl ihr
  | wildcard i =>
    -- The star has its own check, which says which function it stands in.
    intro previous f outer rest R hstart hend hrest
    rw [List.singleton_append, slotsPass_star, hrest, checkStar_argument hstart hend]
    have hmissing : Expr.wildcard.NoneMissing r := by rintro c ⟨⟩
    simp only [Expr.not_starsPlaced_wildcard, hmissing, or_false, true_and]
  | argument hd ih =>
    intro previous f outer rest R hstart hend hrest
    rw [ih (some previous) (some f :: outer) rest R (noName_of_startsArgument hstart) hrest]
    -- An expression is no lone star, so the first alternative falls away.
    have hstar := hd.noStar
    simp only [Phrase.NoStar] at hstar
    simp only [hstar, false_and, false_or]
  | lastArgument _ ih =>
    -- The closing parenthesis of the call ends the last argument.
    intro previous f outer i rest R hstart hrest
    rw [ih previous f outer (⟨.symbol .rightParen, i⟩ :: rest) R hstart rfl fun _ => hrest]
    simp [nextToken]
  | @moreArguments i first others e es _ hothers ihfirst ihothers =>
    intro previous f outer j rest R hstart hrest
    -- Behind a comma no star is the only argument, so the others must be well placed themselves.
    have hcomma : checkComma (some f :: outer)
        (nextToken (others ++ ⟨.symbol .rightParen, j⟩ :: rest)) i = .ok () :=
      checkComma_eq_ok (hothers.endsArgument_nextToken _)
    rw [List.append_assoc, List.cons_append, ihfirst previous f outer _ _ hstart rfl fun _ => by
      rw [slotsPass_comma, and_iff_right hcomma,
        ihothers (.symbol .comma) f outer j rest R rfl hrest]]
    simp [nextToken, hothers.arguments_ne_nil, and_assoc, and_left_comm]

/-- On the tokens of a tree the check of argument slots looks for stars out of place and for
calls without the arguments they need, and for nothing else. -/
theorem Derives.checkArguments_eq_ok_iff {e : Expr} (h : Derives tokens (.expression e)) :
    checkArguments r tokens = .ok () ↔ e.StarsPlaced ∧ e.NoneMissing r := by
  have hpass := h.slotsOver (r := r) none [] [] True nofun fun _ => by
    simp [SlotsPass, checkArgumentsFrom]
  rwa [List.append_nil, and_true] at hpass

end BandedReport.Formula
