import BandedReport.Proofs.Formula.Parsing
import BandedReport.Proofs.Formula.Scanning
import BandedReport.Proofs.Trimming
import BandedReport.Formula.Printer

/-!
# Texts that denote phrases

`Written chars p` says that the characters, as a part of a longer text, are scanned to tokens that
derive the phrase `p`. The rules below mirror the grammar: a text is put together from texts of
its parts, with the blanks that a printed formula has.
-/

namespace BandedReport.Formula

/-! ## §1 Ends without blanks -/

/-- The text neither begins nor ends with a blank, nor is it empty. -/
structure Solid (chars : List Char) : Prop where
  first : ∃ c rest, chars = c :: rest ∧ isBlank c = false
  last : ∃ c front, chars = front ++ [c] ∧ isBlank c = false

namespace Solid

/-- Such a text is not trimmed any further. -/
theorem trimChars_eq {chars : List Char} (h : Solid chars) : trimChars chars = chars := by
  obtain ⟨c, rest, hfirst, hc⟩ := h.first
  obtain ⟨d, front, hlast, hd⟩ := h.last
  refine trimChars_of_ends (fun e he => ?_) (fun e he => ?_)
  · rw [hfirst, List.head?_cons, Option.mem_some_iff] at he
    rwa [← he]
  · rw [hlast, List.getLast?_concat, Option.mem_some_iff] at he
    rwa [← he]

theorem ne_nil {chars : List Char} (h : Solid chars) : chars ≠ [] := by
  obtain ⟨c, rest, rfl, -⟩ := h.first
  exact nofun

theorem of_ends {c d : Char} {middle : List Char} (hc : isBlank c = false)
    (hd : isBlank d = false) : Solid (c :: (middle ++ [d])) :=
  ⟨⟨c, middle ++ [d], rfl, hc⟩, ⟨d, c :: middle, rfl, hd⟩⟩

theorem cons {c : Char} {chars : List Char} (hc : isBlank c = false) (h : Solid chars) :
    Solid (c :: chars) := by
  obtain ⟨d, front, rfl, hd⟩ := h.last
  exact of_ends hc hd

theorem append {left right : List Char} (hl : Solid left) (middle : List Char)
    (hr : Solid right) : Solid (left ++ (middle ++ right)) := by
  obtain ⟨c, rest, rfl, hc⟩ := hl.first
  obtain ⟨d, front, rfl, hd⟩ := hr.last
  refine ⟨⟨c, _, rfl, hc⟩, ⟨d, c :: rest ++ (middle ++ front), ?_, hd⟩⟩
  simp only [List.append_assoc]

end Solid

theorem Solid.of_isDigits {digits : List Char} (h : IsDigits digits) : Solid digits := by
  obtain ⟨hne, hall⟩ := h
  refine ⟨?_, ?_⟩
  · obtain ⟨c, rest, rfl⟩ := List.exists_cons_of_ne_nil hne
    exact ⟨c, rest, rfl, isBlank_of_isDigit (hall c List.mem_cons_self)⟩
  · refine ⟨digits.getLast hne, digits.dropLast, (List.dropLast_concat_getLast hne).symm, ?_⟩
    exact isBlank_of_isDigit (hall _ (List.getLast_mem hne))

theorem Solid.of_numeral {chars : List Char} (h : Numeral chars) : Solid chars := by
  cases h with
  | whole hdigits => exact .of_isDigits hdigits
  | point hwhole hfraction => exact (of_isDigits hwhole).append ['.'] (of_isDigits hfraction)

/-! ## §2 Written phrases -/

/-- The text is solid, and with nothing behind it that would prolong its last word it is scanned
to tokens of the phrase. -/
structure Written (chars : List Char) (p : Phrase) : Prop where
  solid : Solid chars
  scans : ∀ position rest more, EndsWord rest →
    scanFrom (position + chars.length) rest = .ok more →
      ∃ tokens, scanFrom position (chars ++ rest) = .ok (tokens ++ more) ∧ Derives tokens p

theorem endsWord_nil : EndsWord [] := nofun

theorem endsWord_cons {c : Char} {rest : List Char} (h : c = ' ' ∨ c = ',' ∨ c = ')') :
    EndsWord (c :: rest) := by
  rintro d ⟨⟩
  exact h

namespace Written

variable {chars : List Char} {e : Expr}

/-- The whole text is scanned to tokens of the phrase. -/
theorem scan {p : Phrase} (h : Written chars p) :
    ∃ tokens, Token.scan chars = .ok tokens ∧ Derives tokens p := by
  have hnil : scanFrom (0 + chars.length) [] = .ok [] := by rw [scanFrom]
  obtain ⟨tokens, hscan, hderives⟩ := h.scans 0 [] [] endsWord_nil hnil
  rw [List.append_nil, List.append_nil] at hscan
  exact ⟨tokens, hscan, hderives⟩

/-- A text is written as a phrase whenever it is written as one that is such a phrase as well. -/
theorem imp {p q : Phrase} (h : Written chars p)
    (hpq : ∀ tokens, Derives tokens p → Derives tokens q) : Written chars q := by
  refine ⟨h.solid, fun position rest more hrest hmore => ?_⟩
  obtain ⟨tokens, hscan, hderives⟩ := h.scans position rest more hrest hmore
  exact ⟨tokens, hscan, hpq tokens hderives⟩

theorem term (h : Written chars (.factor e)) : Written chars (.term e) := h.imp fun _ => .factor

theorem expression (h : Written chars (.term e)) : Written chars (.expression e) :=
  h.imp fun _ => .term

theorem argument (h : Written chars (.expression e)) : Written chars (.argument e) :=
  h.imp fun _ => .argument

theorem lastArgument (h : Written chars (.argument e)) : Written chars (.arguments [e]) :=
  h.imp fun _ => .lastArgument

/-! ### Single words -/

theorem number (h : Numeral chars) : Written chars (.factor (.number (literalValue chars))) := by
  refine ⟨.of_numeral h, fun position rest more hrest hmore => ?_⟩
  exact ⟨[⟨.number (literalValue chars), position⟩], scanFrom_number h hrest hmore,
    .number _ position⟩

theorem text {q : Char} {body : List Char} (hq : (q == '"' || q == '\'') = true)
    (hbody : ∀ c ∈ body, c ≠ q) :
    Written (q :: (body ++ [q])) (.factor (.text (String.ofList body))) := by
  have hblank : isBlank q = false := by
    rw [Bool.or_eq_true, beq_iff_eq, beq_iff_eq] at hq
    rcases hq with rfl | rfl <;> decide
  refine ⟨.of_ends hblank hblank, fun position rest more _ hmore => ?_⟩
  have hclose : scanFrom (position + (body.length + 2)) rest = .ok more := by
    rw [← hmore, List.length_cons, List.length_append, List.length_singleton]
  have hscan := scanFrom_text hq hbody hclose
  refine ⟨[⟨.text (String.ofList body), position⟩], ?_, .text _ position⟩
  rw [List.cons_append, List.append_assoc, List.singleton_append, hscan]
  rfl

theorem reference {name : List Char} (hne : name ≠ []) (hbraces : ∀ c ∈ name, isBrace c = false)
    (htrim : trimChars name = name) :
    Written ('\x7b' :: (name ++ ['\x7d'])) (.factor (.reference (String.ofList name))) := by
  refine ⟨.of_ends (by decide) (by decide), fun position rest more _ hmore => ?_⟩
  have hclose : scanFrom (position + (name.length + 2)) rest = .ok more := by
    rw [← hmore, List.length_cons, List.length_append, List.length_singleton]
  obtain ⟨i, j, hscan⟩ := scanFrom_reference hne hbraces htrim hclose
  refine ⟨_, ?_, .reference _ position i j⟩
  rw [List.cons_append, List.append_assoc, List.singleton_append, hscan]
  rfl

theorem wildcard : Written ['*'] (.argument .wildcard) := by
  refine ⟨⟨⟨_, _, rfl, by decide⟩, ⟨_, [], rfl, by decide⟩⟩, fun position rest more _ hmore => ?_⟩
  have hscan := scanFrom_symbol (s := .star) nofun hmore
  exact ⟨[⟨.symbol .star, position⟩], hscan, .wildcard position⟩

/-! ### Operations -/

/-- A text between parentheses. -/
theorem parens (h : Written chars (.expression e)) :
    Written (parenthesized chars) (.factor e) := by
  refine ⟨.of_ends (by decide) (by decide), fun position rest more _ hmore => ?_⟩
  -- From right to left: what stands behind, the closing parenthesis, the inside, the opening one.
  have hend : scanFrom (position + 1 + chars.length + 1) rest = .ok more := by
    rw [← hmore, parenthesized, List.length_append, List.length_cons, List.length_singleton]
    congr 1
    omega
  have hclose := scanFrom_symbol (s := .rightParen) nofun hend
  obtain ⟨tokens, hscan, hderives⟩ := h.scans _ _ _ (endsWord_cons (.inr (.inr rfl))) hclose
  have hopen := scanFrom_symbol (s := .leftParen) nofun hscan
  -- The tokens in between derive the expression, and the parentheses around it make a factor.
  refine ⟨_, ?_, .parens position (position + 1 + chars.length) hderives⟩
  rw [parenthesized, List.append_assoc, List.singleton_append, List.cons_append,
    List.cons_append, List.append_assoc, List.singleton_append]
  exact hopen

theorem negate (h : Written chars (.factor e)) : Written ('-' :: chars) (.factor (.negate e)) := by
  refine ⟨h.solid.cons (by decide), fun position rest more hrest hmore => ?_⟩
  have hend : scanFrom (position + 1 + chars.length) rest = .ok more := by
    rw [← hmore, List.length_cons]
    congr 1
    omega
  obtain ⟨tokens, hscan, hderives⟩ := h.scans _ _ _ hrest hend
  have hsign := scanFrom_symbol (s := .minus) nofun hscan
  exact ⟨⟨.symbol .minus, position⟩ :: tokens, hsign, .negate position hderives⟩

/-- Two texts with a symbol and blanks between them. -/
private theorem scans_around {left right : List Char} {p q : Phrase} {s : Symbol}
    (hs : s ≠ .leftBrace) (hl : Written left p) (hr : Written right q) (position : Nat)
    {rest : List Char} {more : List Placed} (hrest : EndsWord rest)
    (hmore : scanFrom (position + (left ++ ' ' :: s.char :: ' ' :: right).length) rest = .ok more) :
    ∃ first i others, scanFrom position (left ++ ' ' :: s.char :: ' ' :: right ++ rest) =
        .ok (first ++ ⟨.symbol s, i⟩ :: others ++ more) ∧ Derives first p ∧ Derives others q := by
  -- Again from right to left; a blank behind the left text ends its last word.
  have hend : scanFrom (position + left.length + 1 + 1 + 1 + right.length) rest = .ok more := by
    rw [← hmore]
    simp only [List.length_append, List.length_cons]
    congr 1
    omega
  obtain ⟨others, hothers, hq⟩ := hr.scans _ _ _ hrest hend
  have hblank : scanFrom (position + left.length + 1 + 1) (' ' :: (right ++ rest)) =
      .ok (others ++ more) := by
    rw [scanFrom_blank (by decide), hothers]
  have hsymbol := scanFrom_symbol hs hblank
  have hright : scanFrom (position + left.length) (' ' :: s.char :: ' ' :: (right ++ rest)) =
      .ok (⟨.symbol s, position + left.length + 1⟩ :: (others ++ more)) := by
    rw [scanFrom_blank (by decide), hsymbol]
  -- The left text is scanned last, with all the rest behind it.
  obtain ⟨first, hfirst, hp⟩ := hl.scans _ _ _ (endsWord_cons (.inl rfl)) hright
  refine ⟨first, position + left.length + 1, others, ?_, hp, hq⟩
  simpa only [List.append_assoc, List.cons_append] using hfirst

private theorem solid_around {left right : List Char} {p q : Phrase} (s : Symbol)
    (hl : Written left p) (hr : Written right q) :
    Solid (left ++ ' ' :: s.char :: ' ' :: right) :=
  hl.solid.append [' ', s.char, ' '] hr.solid

theorem sum {left right : List Char} {l r : Expr} {op : Operator} {s : Symbol}
    (hop : sumOperator? (.symbol s) = some op) (hl : Written left (.expression l))
    (hr : Written right (.term r)) :
    Written (left ++ ' ' :: s.char :: ' ' :: right) (.expression (.binary op l r)) := by
  refine ⟨solid_around s hl hr, fun position rest more hrest hmore => ?_⟩
  have hs : s ≠ .leftBrace := by rintro rfl; cases hop
  obtain ⟨first, i, others, hscan, hfirst, hothers⟩ := scans_around hs hl hr position hrest hmore
  exact ⟨_, hscan, .sum i hop hfirst hothers⟩

theorem product {left right : List Char} {l r : Expr} {op : Operator} {s : Symbol}
    (hop : productOperator? (.symbol s) = some op) (hl : Written left (.term l))
    (hr : Written right (.factor r)) :
    Written (left ++ ' ' :: s.char :: ' ' :: right) (.term (.binary op l r)) := by
  refine ⟨solid_around s hl hr, fun position rest more hrest hmore => ?_⟩
  have hs : s ≠ .leftBrace := by rintro rfl; cases hop
  obtain ⟨first, i, others, hscan, hfirst, hothers⟩ := scans_around hs hl hr position hrest hmore
  exact ⟨_, hscan, .product i hop hfirst hothers⟩

/-! ### Calls -/

theorem moreArguments {first others : List Char} {es : List Expr}
    (hfirst : Written first (.argument e)) (hothers : Written others (.arguments es)) :
    Written (first ++ ',' :: ' ' :: others) (.arguments (e :: es)) := by
  refine ⟨hfirst.solid.append [',', ' '] hothers.solid, fun position rest more hrest hmore => ?_⟩
  -- The comma ends the last word of the first argument.
  have hend : scanFrom (position + first.length + 1 + 1 + others.length) rest = .ok more := by
    rw [← hmore]
    simp only [List.length_append, List.length_cons]
    congr 1
    omega
  -- The others are scanned first, then the blank, the comma and the first argument.
  obtain ⟨tokens', hscan', hderives'⟩ := hothers.scans _ _ _ hrest hend
  have hblank : scanFrom (position + first.length + 1) (' ' :: (others ++ rest)) =
      .ok (tokens' ++ more) := by
    rw [scanFrom_blank (by decide), hscan']
  have hcomma := scanFrom_symbol (s := .comma) nofun hblank
  obtain ⟨tokens, hscan, hderives⟩ := hfirst.scans _ _ _ (endsWord_cons (.inr (.inl rfl))) hcomma
  refine ⟨_, ?_, .moreArguments (position + first.length) hderives hderives'⟩
  simpa only [List.append_assoc, List.cons_append] using hscan

theorem solid_call {name args : List Char} (hname : isIdentifier name = true) :
    Solid (name ++ '(' :: args ++ [')']) := by
  cases name with
  | nil => cases hname
  | cons c tail =>
    rw [isIdentifier, Bool.and_eq_true] at hname
    exact .of_ends (isBlank_of_isNameStart hname.1) (by decide)

theorem emptyCall {name : List Char} (hname : isIdentifier name = true) :
    Written (name ++ '(' :: [] ++ [')']) (.factor (.call (String.ofList name) [])) := by
  refine ⟨solid_call hname, fun position rest more _ hmore => ?_⟩
  -- From right to left: the rest, the two parentheses and the name.
  have hend : scanFrom (position + name.length + 1 + 1) rest = .ok more := by
    rw [← hmore]
    simp only [List.length_append, List.length_cons, List.length_nil]
    congr 1
  have hclose := scanFrom_symbol (s := .rightParen) nofun hend
  have hopen := scanFrom_symbol (s := .leftParen) nofun hclose
  have hscan := scanFrom_name hname hopen
  refine ⟨_, ?_, .emptyCall (String.ofList name) position (position + name.length)
    (position + name.length + 1)⟩
  simp only [List.append_assoc, List.cons_append, List.nil_append]
  exact hscan

theorem call {name args : List Char} {es : List Expr} (hname : isIdentifier name = true)
    (hargs : Written args (.arguments es)) :
    Written (name ++ '(' :: args ++ [')']) (.factor (.call (String.ofList name) es)) := by
  refine ⟨solid_call hname, fun position rest more _ hmore => ?_⟩
  -- From right to left: the rest, the closing parenthesis, the arguments, the opening one and the
  -- name.
  have hend : scanFrom (position + name.length + 1 + args.length + 1) rest = .ok more := by
    rw [← hmore]
    simp only [List.length_append, List.length_cons, List.length_nil]
    congr 1
    omega
  have hclose := scanFrom_symbol (s := .rightParen) nofun hend
  obtain ⟨tokens, htokens, hderives⟩ :=
    hargs.scans _ _ _ (endsWord_cons (.inr (.inr rfl))) hclose
  have hopen := scanFrom_symbol (s := .leftParen) nofun htokens
  have hscan := scanFrom_name hname hopen
  refine ⟨_, ?_, .call (String.ofList name) position (position + name.length)
    (position + name.length + 1 + args.length) hderives⟩
  simpa only [List.append_assoc, List.cons_append, List.nil_append] using hscan

/-- A written expression is parsed. -/
theorem parse_eq {chars : List Char} {e : Expr} (h : Written chars (.expression e)) :
    Expr.parse (String.ofList chars) = .ok e := by
  obtain ⟨tokens, hscan, hderives⟩ := h.scan
  rw [parse_eq_ok_iff, String.toList_ofList, h.solid.trimChars_eq]
  exact ⟨h.solid.ne_nil, tokens, hscan, hderives⟩

end Written

end BandedReport.Formula
