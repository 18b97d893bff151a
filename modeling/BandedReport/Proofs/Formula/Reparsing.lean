import Mathlib
import BandedReport.Proofs.Decimal.Unsigned
import BandedReport.Proofs.Formula.Reprinting
import BandedReport.Proofs.Trimming

/-!
# Printing what was parsed

The parser builds trees that have a text of their own, with two exceptions: blanks alone between
braces are read as the empty name, and digits without end are read as an infinite number. Neither
has a text that is read back. Every other tree of the parser is printed and parsed to itself.
-/

namespace BandedReport.Formula

/-! ## §1 Words of the scanner -/

/-- What the scanner grants of a word: a number has no sign, a text not both kinds of quotes, a
function a name it may have, and the name between braces neither braces nor outer blanks. -/
def Token.WellFormed : Token → Prop
  | .number x => x.abs = x
  | .text s => hasBothQuotes s.toList = false
  | .name f => isIdentifier f.toList = true
  | .reference field =>
    (∀ c ∈ field.toList, isBrace c = false) ∧ trimChars field.toList = field.toList
  | .symbol _ => True

theorem wellFormed_number (chars : List Char) : (Token.number (literalValue chars)).WellFormed := by
  show (literalValue chars).abs = literalValue chars
  rw [literalValue]
  exact Decimal.abs_toFloat rfl

/-- A text ends at the first quote of the kind that opened it, so it holds none of that kind. -/
theorem wellFormed_text {c : Char} (hc : (c == '"' || c == '\'') = true) (rest : List Char) :
    (Token.text (String.ofList (rest.takeWhile (· != c)))).WellFormed := by
  have hmissing : (rest.takeWhile (· != c)).contains c = false := by
    rw [← Bool.not_eq_true, List.contains_iff_mem]
    intro hmem
    simpa using List.mem_takeWhile_imp hmem
  show hasBothQuotes _ = false
  rw [String.toList_ofList, hasBothQuotes]
  rw [Bool.or_eq_true, beq_iff_eq, beq_iff_eq] at hc
  rcases hc with rfl | rfl
  · rw [hmissing, Bool.false_and]
  · rw [hmissing, Bool.and_false]

theorem wellFormed_name {c : Char} (hc : isNameStart c = true) (rest : List Char) :
    (Token.name (String.ofList (c :: rest.takeWhile isNameChar))).WellFormed := by
  show isIdentifier _ = true
  rw [String.toList_ofList, isIdentifier, hc, List.all_takeWhile]
  rfl

theorem wellFormed_reference (rest : List Char) :
    (Token.reference (String.ofList (trimChars (rest.takeWhile (!isBrace ·))))).WellFormed := by
  refine ⟨fun c hc => ?_, ?_⟩
  · rw [String.toList_ofList] at hc
    have htake := List.mem_takeWhile_imp ((trimChars_sublist _).subset hc)
    simpa using htake
  · rw [String.toList_ofList, trimChars_trimChars]

theorem wellFormed_of_readWord {position : Nat} {c : Char} {rest tail : List Char} {token : Token}
    (h : readWord position c rest = .ok (token, tail)) : token.WellFormed := by
  unfold readWord at h
  split at h
  · -- A word begins with a quote, a digit or a letter, and anything else is refused.
    rename_i hquote
    split at h
    · cases h
    · cases h
      exact wellFormed_text hquote rest
  · split at h
    · cases h
      exact wellFormed_number _
    · split at h
      · rename_i hstart
        cases h
        exact wellFormed_name hstart rest
      · cases h

/-- Every word that the scanner makes of a formula is well formed. -/
theorem wellFormed_of_scanFrom {position : Nat} {chars : List Char} {tokens : List Placed}
    (h : scanFrom position chars = .ok tokens) : ∀ t ∈ tokens, t.token.WellFormed := by
  -- The cases are the branches of the scanner: blanks, errors, braces, symbols and words.
  fun_induction scanFrom position chars generalizing tokens with
  | case1 =>
    cases h
    exact List.forall_mem_nil _
  | case2 _ _ _ _ ih => exact ih h
  | case3 | case5 | case7 | case8 => cases h
  | case4 position c rest _ _ name brace inner more hmore =>
    rename_i ih
    cases h
    -- Between the braces stands at most one word, the name.
    have hinner : ∀ t ∈ inner, t.token.WellFormed := by
      intro t ht
      simp only [inner] at ht
      split at ht
      · cases ht
      · rw [List.mem_singleton] at ht
        rw [ht]
        exact wellFormed_reference rest
    rw [List.cons_append, List.forall_mem_cons, List.forall_mem_append]
    exact ⟨trivial, hinner, ih hmore⟩
  | case6 _ _ _ _ _ _ _ more hmore ih =>
    -- A symbol is well formed as it is.
    cases h
    exact List.forall_mem_cons.mpr ⟨trivial, ih hmore⟩
  | case9 _ _ _ _ _ _ _ hread more hmore ih =>
    cases h
    exact List.forall_mem_cons.mpr ⟨wellFormed_of_readWord hread, ih hmore⟩

/-! ## §2 Trees of the parser -/

/-- The trees that the parser builds. Those that can be printed are among them, where their
literals have forms of their own; a name may be empty, and a number infinite. -/
inductive Expr.Regular : Expr → Prop where
  | number {x : Float} : x.abs = x → Regular (.number x)
  | text {s : String} : hasBothQuotes s.toList = false → Regular (.text s)
  | reference {name : String} : (∀ c ∈ name.toList, isBrace c = false) →
      trimChars name.toList = name.toList → Regular (.reference name)
  | negate {e : Expr} : Regular e → Regular (.negate e)
  | binary (op : Operator) {l r : Expr} : Regular l → Regular r → Regular (.binary op l r)
  | call {f : String} {args : List Expr} : isIdentifier f.toList = true →
      (∀ a ∈ args, a ≠ .wildcard → Regular a) → Regular (.call f args)

/-- The trees of a phrase are regular; an argument may be a star instead. -/
def Phrase.Regular : Phrase → Prop
  | .factor e | .term e | .expression e => e.Regular
  | .argument e => e ≠ .wildcard → e.Regular
  | .arguments es => ∀ e ∈ es, e ≠ .wildcard → e.Regular

/-- Well-formed words denote regular trees. -/
theorem Derives.regular {tokens : List Placed} {p : Phrase} (h : Derives tokens p)
    (hwords : ∀ t ∈ tokens, t.token.WellFormed) : p.Regular := by
  -- Each rule of the grammar makes a tree of words and smaller phrases, all among the tokens.
  induction h with
  | number x i => exact .number (hwords _ List.mem_cons_self)
  | text s i => exact .text (hwords _ List.mem_cons_self)
  | reference name i j k =>
    obtain ⟨hbraces, htrim⟩ : (Token.reference name).WellFormed :=
      hwords ⟨.reference name, j⟩ (by simp)
    exact .reference hbraces htrim
  | emptyCall f i j k => exact .call (hwords _ List.mem_cons_self) nofun
  | call f i j k _ ih =>
    refine .call (hwords _ List.mem_cons_self) (ih fun t ht => hwords t ?_)
    exact List.mem_cons_of_mem _ (List.mem_cons_of_mem _ (List.mem_append_left _ ht))
  | parens i j _ ih =>
    -- The parentheses leave no trace in the tree.
    exact ih fun t ht => hwords t (List.mem_cons_of_mem _ (List.mem_append_left _ ht))
  | negate i _ ih => exact .negate (ih fun t ht => hwords t (List.mem_cons_of_mem _ ht))
  | factor _ ih | term _ ih => exact ih hwords
  | @product _ _ op _ _ _ _ _ _ _ ihl ihr | @sum _ _ op _ _ _ _ _ _ _ ihl ihr =>
    rw [List.forall_mem_append, List.forall_mem_cons] at hwords
    exact .binary op (ihl hwords.1) (ihr hwords.2.2)
  -- A star alone is no argument that has to be regular.
  | wildcard i => exact fun hstar => absurd rfl hstar
  | argument _ ih => exact fun _ => ih hwords
  | lastArgument _ ih => exact List.forall_mem_singleton.mpr (ih hwords)
  | moreArguments i _ _ ihfirst ihothers =>
    rw [List.forall_mem_append, List.forall_mem_cons] at hwords
    exact List.forall_mem_cons.mpr ⟨ihfirst hwords.1, ihothers hwords.2.2⟩

/-- The parser builds regular trees only. -/
theorem Expr.regular_of_parse {formula : String} {e : Expr} (h : Expr.parse formula = .ok e) :
    e.Regular := by
  obtain ⟨-, tokens, hscan, hderives⟩ := parse_eq_ok_iff.mp h
  exact hderives.regular (wellFormed_of_scanFrom hscan)

namespace Expr

/-- What the parser grants of a literal. -/
def ParsedLiteral : Scalar → Prop
  | .number x => x.abs = x
  | .text s => hasBothQuotes s.toList = false
  | _ => False

theorem parsedLiteral_of_regular {e : Expr} (h : e.Regular) :
    ∀ v ∈ e.literals, ParsedLiteral v := by
  induction e with
  | literal value =>
    rw [literals, List.forall_mem_singleton]
    cases h with
    | number hx => exact hx
    | text hs => exact hs
  | reference | wildcard => exact List.forall_mem_nil _
  | negate e ih =>
    cases h with
    | negate he => exact ih he
  | binary op l r ihl ihr =>
    cases h with
    | binary _ hl hr => exact List.forall_mem_append.mpr ⟨ihl hl, ihr hr⟩
  | call f args ih =>
    cases h with
    | call _ hargs =>
      -- A star has no literals, and the other arguments are regular.
      intro v hv
      obtain ⟨a, ha, hv⟩ := mem_literals_call.mp hv
      by_cases hstar : a = .wildcard
      · subst hstar
        cases hv
      · exact ih a ha (hargs a ha hstar) v hv

/-- Such a literal has a form of its own. -/
theorem ParsedLiteral.hasForm {v : Scalar} (h : ParsedLiteral v) : HasForm v := by
  cases v with
  | number x => exact (not_lt_zero_of_abs_eq h).1
  | text s => exact h
  | null | boolean | date => cases h

/-! ## §3 Trees with a text of their own -/

theorem printable_reference {name : String} (hbraces : ∀ c ∈ name.toList, isBrace c = false)
    (htrim : trimChars name.toList = name.toList) :
    (reference name).Printable ↔ "" ∉ (reference name).references := by
  have hempty : "" ∉ (reference name).references ↔ name.toList ≠ [] := by
    rw [mem_references_reference, ne_eq, String.toList_eq_nil_iff, eq_comm]
  rw [hempty]
  exact ⟨fun | .reference hne _ _ => hne, fun hne => .reference hne hbraces htrim⟩

theorem printable_negate {e : Expr} : (negate e).Printable ↔ e.Printable :=
  ⟨fun | .negate h => h, .negate⟩

theorem printable_binary {op : Operator} {l r : Expr} :
    (binary op l r).Printable ↔ l.Printable ∧ r.Printable :=
  ⟨fun | .binary _ hl hr => ⟨hl, hr⟩, fun ⟨hl, hr⟩ => .binary op hl hr⟩

/-- A regular tree can be printed just when it has no empty name and no infinite number. -/
theorem printable_iff_of_regular {e : Expr} (h : e.Regular) :
    e.Printable ↔ "" ∉ e.references ∧ ∀ x, .number x ∈ e.literals → x.isFinite = true := by
  -- Names and literals of a tree are those of its parts, so both sides are about the parts.
  induction e with
  | literal value =>
    have hnames : "" ∉ (literal value).references := List.not_mem_nil
    -- A number that was read is not negative, so being finite is all that printing asks of it.
    simp only [hnames, not_false_eq_true, true_and, literals, List.mem_singleton]
    cases h with
    | @number x hx =>
      constructor
      · rintro (_ | hfinite) y hy
        cases hy
        exact hfinite
      · exact fun hfinite => .number (hfinite x rfl) (not_lt_zero_of_abs_eq hx).2
    | text =>
      refine ⟨fun _ x hx => ?_, fun _ => .text _⟩
      cases hx
  | reference name =>
    -- The name has no braces or blanks at its ends, so it is left to be more than nothing.
    cases h with
    | reference hbraces htrim =>
      rw [printable_reference hbraces htrim]
      exact ⟨fun hne => ⟨hne, fun _ hx => absurd hx List.not_mem_nil⟩, And.left⟩
  | wildcard => cases h
  | negate e ih =>
    cases h with
    | negate he =>
      rw [printable_negate, ih he]
      rfl
  | binary op l r ihl ihr =>
    cases h with
    | binary _ hl hr =>
      rw [printable_binary, ihl hl, ihr hr, mem_references_binary, literals]
      simp only [List.mem_append, not_or, or_imp, forall_and]
      exact and_and_and_comm
  | call f args ih =>
    cases h with
    | call hf hargs =>
      constructor
      · intro h
        cases h with
        | call _ hprintable =>
          -- A star has neither names nor literals; the other arguments can be printed.
          have harg : ∀ a ∈ args, "" ∉ a.references ∧
              ∀ x, .number x ∈ a.literals → x.isFinite = true := by
            intro a ha
            by_cases hstar : a = .wildcard
            · subst hstar
              exact ⟨List.not_mem_nil, fun _ hx => absurd hx List.not_mem_nil⟩
            · exact (ih a ha (hargs a ha hstar)).mp (hprintable a ha hstar)
          refine ⟨fun hname => ?_, fun x hx => ?_⟩
          · obtain ⟨a, ha, hname⟩ := mem_references_call.mp hname
            exact (harg a ha).1 hname
          · obtain ⟨a, ha, hx⟩ := mem_literals_call.mp hx
            exact (harg a ha).2 x hx
      · rintro ⟨hnames, hnumbers⟩
        refine .call hf fun a ha hstar => (ih a ha (hargs a ha hstar)).mpr ⟨fun hname => ?_, ?_⟩
        · exact hnames (mem_references_call.mpr ⟨a, ha, hname⟩)
        · exact fun x hx => hnumbers x (mem_literals_call.mpr ⟨a, ha, hx⟩)

end Expr

/-! ## §4 Parsing back -/

/-- **The text of a parsed formula.** The tree of a formula holds no text with both kinds of quotes
and no star but as an argument; it can be printed just when no name in it is empty and no number
infinite; and then, where its numbers are read back from their digits, its text is parsed to the
tree itself. -/
theorem parse_toText_of_parse (formula : String) (e : Expr) (h : Expr.parse formula = .ok e)
    (hread : ∀ x, .number x ∈ e.literals → x.isFinite = true → ReadsBack x) :
    e.Regular ∧
      (e.Printable ↔ "" ∉ e.references ∧ ∀ x, .number x ∈ e.literals → x.isFinite = true) ∧
      (e.Printable → Expr.parse e.toText = .ok e) := by
  have hregular := Expr.regular_of_parse h
  have hliterals := Expr.parsedLiteral_of_regular hregular
  have hprintable := Expr.printable_iff_of_regular hregular
  refine ⟨hregular, hprintable, fun hprint => ?_⟩
  -- A literal that was read has no sign to lose.
  have habs : ∀ x, .number x ∈ e.literals → ReadsBack x.abs := by
    intro x hx
    have hx' : x.abs = x := hliterals _ hx
    rw [hx']
    exact hread x hx ((hprintable.mp hprint).2 x hx)
  -- The tree has the forms that are printed already, so nothing is written another way.
  rw [hprint.parse_toText habs, Expr.desugar_eq_self fun v hv => (hliterals v hv).hasForm]

/-- A formula with more parentheses and digits than its text needs. -/
theorem parse_doubled :
    Expr.parse "(\x7bprice\x7d) * 02.50" =
      .ok (.binary .multiply (.reference "price") (.number 2.5)) := by
  have hprice : Written ('\x7b' :: ("price".toList ++ ['\x7d']))
      (.factor (.reference (String.ofList "price".toList))) :=
    Written.reference (by decide) (by simp [isBrace]) (by decide +kernel)
  have hrate : Written ("02".toList ++ '.' :: "50".toList)
      (.factor (.number (literalValue ("02".toList ++ '.' :: "50".toList)))) :=
    Written.number (.point ⟨by decide, by simp⟩ ⟨by decide, by simp⟩)
  have hvalue : literalValue ("02".toList ++ '.' :: "50".toList) = 2.5 := by decide +kernel
  rw [hvalue] at hrate
  have hproduct := Written.product (s := .star) rfl hprice.term.expression.parens.term hrate
  exact hproduct.expression.parse_eq

theorem parse_toText_of_parse_doubled :
    Expr.parse "(\x7bprice\x7d) * 02.50" =
      .ok (.binary .multiply (.reference "price") (.number 2.5)) ∧
      Expr.parse "\x7bprice\x7d * 2.5" =
        .ok (.binary .multiply (.reference "price") (.number 2.5)) := by
  -- The only number of the formula is two and a half.
  have hliterals : ∀ x, .number x ∈
      (Expr.binary .multiply (.reference "price") (.number 2.5)).literals → x = 2.5 := by
    intro x hx
    simpa [Expr.literals, Expr.number] using hx
  obtain ⟨-, hprintable, hagain⟩ := parse_toText_of_parse _ _ parse_doubled (by
    intro x hx _
    rw [hliterals x hx]
    show literalValue _ = _
    decide +kernel)
  have hprint := hprintable.mpr ⟨by decide, fun x hx => by rw [hliterals x hx]; decide +kernel⟩
  -- The text has neither the parentheses nor the zeros that were written.
  have htext : (Expr.binary .multiply (.reference "price") (.number 2.5)).toText =
      "\x7bprice\x7d * 2.5" := by decide +kernel
  have hparse := hagain hprint
  rw [htext] at hparse
  exact ⟨parse_doubled, hparse⟩

/-- A number of four hundred digits is above all doubles. -/
theorem literalValue_nines : literalValue (List.replicate 401 '9') = 1.0 / 0.0 := by
  decide +kernel

theorem parse_nines :
    Expr.parse (String.ofList (List.replicate 401 '9')) = .ok (.number (1.0 / 0.0)) := by
  have hdigits : IsDigits (List.replicate 401 '9') := by
    refine ⟨by decide, fun c hc => ?_⟩
    rw [List.eq_of_mem_replicate hc]
    rfl
  have hparse := (Written.number (.whole hdigits)).term.expression.parse_eq
  rwa [literalValue_nines] at hparse

/-- The text of an infinite number is a name, and no parenthesis follows it. -/
private theorem parse_infinite :
    Expr.parse (Expr.number (1.0 / 0.0)).toText = .error (.malformed (.expectedCall "inf" 0)) := by
  have htext : (Expr.number (1.0 / 0.0)).toText = "inf" := by decide +kernel
  have htrim : trimChars "inf".toList = "inf".toList := by decide +kernel
  have hread : readWord 0 'i' ['n', 'f'] = .ok (.name "inf", []) := rfl
  have hscan : Token.scan "inf".toList = .ok [⟨.name "inf", 0⟩] :=
    scanFrom_word (by decide) rfl hread (by rw [scanFrom])
  rw [htext, Expr.parse, htrim, hscan]
  cbv

/-- The two kinds of trees that the parser builds and does not read back: the name between braces
that hold blanks alone, and a number of too many digits. -/
theorem parse_toText_refused :
    (Expr.parse "\x7b \x7d" = .ok (.reference "") ∧
      Expr.parse (Expr.reference "").toText = .error (.malformed (.emptyVariable 0))) ∧
    Expr.parse (String.ofList (List.replicate 401 '9')) = .ok (.number (1.0 / 0.0)) ∧
      Expr.parse (Expr.number (1.0 / 0.0)).toText =
        .error (.malformed (.expectedCall "inf" 0)) :=
  ⟨⟨by cbv, by cbv⟩, parse_nines, parse_infinite⟩

end BandedReport.Formula
