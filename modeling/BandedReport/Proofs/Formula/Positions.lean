import BandedReport.Proofs.Formula.Spans
import BandedReport.Formula.Builtin
import BandedReport.Formula.Validation

/-!
# Where the quick check points

The positions in the errors of the quick check are offsets into the trimmed formula. Since the
tokens were read from words that cover the formula, the character at such an offset is the one the
error is about.
-/

namespace BandedReport.Formula

/-! ## §1 Offsets of tokens -/

/-- The first offset is in front of the second, and between them are blanks alone. -/
def BlankBetween (text : List Char) (i j : Nat) : Prop :=
  i < j ∧ ∀ k, i < k → k < j → ∀ c ∈ text[k]?, isBlank c = true

/-- Where both tokens are symbols, the second is the next character of the text but for blanks. -/
def Precedes (text : List Char) (t t' : Placed) : Prop :=
  ∀ s s', t.token = .symbol s → t'.token = .symbol s' → BlankBetween text t.position t'.position

/-- The symbols among the tokens stand at their offsets, and neighbours are neighbours in the
text. -/
structure PlacedIn (text : List Char) (tokens : List Placed) : Prop where
  symbols : ∀ t ∈ tokens, ∀ s, t.token = .symbol s → text[t.position]? = some s.char
  neighbours : tokens.IsChain (Precedes text)

variable {text : List Char} {tokens : List Placed}

/-- A symbol is spelled by its character alone. -/
theorem Spells.eq_singleton {next : Option Char} {chars : List Char} {s : Symbol}
    (h : Spells next chars (.symbol s)) : chars = [s.char] := by
  cases h
  rfl

theorem Word.IsIn.getElem?_eq {w : Word} {s : Symbol} (h : w.IsIn text)
    (hs : w.token = .symbol s) : w.stop = w.start + 1 ∧ text[w.start]? = some s.char := by
  obtain ⟨⟨tail, htail⟩, hspells⟩ := h
  rw [hs] at hspells
  have hchars := hspells.eq_singleton
  rw [hchars] at htail
  refine ⟨by rw [Word.stop, hchars, List.length_singleton], ?_⟩
  rw [← List.head?_drop, ← htail]
  rfl

/-- Between two words that follow each other are blanks alone. -/
theorem Tiles.gap {start stop : Nat} {before after : List Word} {w w' : Word}
    (h : Tiles text start stop (before ++ w :: w' :: after)) :
    w.stop ≤ w'.start ∧
      ∀ i, w.stop ≤ i → i < w'.start → ∀ c ∈ text[i]?, isBlank c = true := by
  -- The words are in order, so the two have those before on one side and those behind on the other.
  obtain ⟨-, hpairs, hbefore⟩ := List.pairwise_append.mp h.ordered
  obtain ⟨hw, hpairs'⟩ := List.pairwise_cons.mp hpairs
  obtain ⟨hw', -⟩ := List.pairwise_cons.mp hpairs'
  have hmem : w ∈ before ++ w :: w' :: after := by simp
  have hmem' : w' ∈ before ++ w :: w' :: after := by simp
  refine ⟨hw w' List.mem_cons_self, fun i hi hi' => ?_⟩
  -- No word covers the offset: the others end before the one or begin behind the other.
  refine h.blank i ?_ ?_ fun v hv hcovers => ?_
  · exact ((h.within w hmem).1.trans w.start_le_stop).trans hi
  · exact hi'.trans_le (w'.start_le_stop.trans (h.within w' hmem').2)
  · rw [Word.Covers] at hcovers
    rw [List.mem_append, List.mem_cons, List.mem_cons] at hv
    rcases hv with hv | rfl | rfl | hv
    · have hle := hbefore v hv w List.mem_cons_self
      have hle' := w.start_le_stop
      omega
    · omega
    · omega
    · have hle := hw' v hv
      have hle' := w'.start_le_stop
      omega

theorem Tiles.placedIn {start stop : Nat} {words : List Word} (h : Tiles text start stop words) :
    PlacedIn text (words.map Word.placed) where
  symbols := List.forall_mem_map.mpr fun w hw s hs => ((h.isIn w hw).getElem?_eq hs).2
  neighbours := by
    rw [List.isChain_map, List.isChain_iff_forall_rel_of_append_cons_cons]
    rintro w w' before after rfl s s' hs hs'
    obtain ⟨hle, hgap⟩ := h.gap
    have hstop := ((h.isIn w (by simp)).getElem?_eq hs).1
    rw [hstop] at hle hgap
    exact ⟨hle, hgap⟩

/-- The scanner places the tokens where the text has them. -/
theorem placedIn_of_scan (h : Token.scan text = .ok tokens) : PlacedIn text tokens := by
  obtain ⟨words, rfl, htiles⟩ := exists_tiles_of_scanFrom h List.drop_zero
  exact htiles.placedIn

/-! ## §2 Errors that point at a character -/

/-- The position in the error is the offset of the character that the error names: the delimiter
without a partner, the first of two operators in a row, with the second as the next character but
for blanks, or the operator without a right operand. -/
def Error.PointsInto (text : List Char) : Error → Prop
  | unbalanced delimiter position => text[position]? = some delimiter.char
  | consecutiveOperators first second position =>
    text[position]? = some first ∧
      ∃ i, BlankBetween text position i ∧ text[i]? = some second
  | trailingOperator position =>
    ∃ operator : Symbol, operator.isOperator = true ∧ text[position]? = some operator.char
  | _ => True

/-- The error names no place, or the place of what it names. -/
abbrev PointsOnly {α : Type} (text : List Char) (x : Except Error α) : Prop :=
  FailsOnly (Error.PointsInto text) x

theorem Error.IsMalformed.pointsInto {e : Error} (h : e.IsMalformed) : e.PointsInto text := by
  obtain ⟨fault, rfl⟩ := h
  trivial

/-- A delimiter without a partner is reported where it stands. -/
theorem balanceFrom_pointsOnly {opened : List (Symbol × Nat)}
    (hopened : ∀ d ∈ opened, text[d.2]? = some d.1.char)
    (h : ∀ t ∈ tokens, ∀ s, t.token = .symbol s → text[t.position]? = some s.char) :
    PointsOnly text (balanceFrom opened tokens) := by
  -- Delimiters are put on the stack as they are read, so those on it stand at their offsets too.
  fun_induction balanceFrom opened tokens with
  | case1 => exact .ok _
  | case2 delimiter position => exact .error (hopened _ List.mem_cons_self)
  | case3 _ _ _ ih | case4 _ _ _ ih =>
    obtain ⟨hfirst, hrest⟩ := List.forall_mem_cons.mp h
    exact ih (List.forall_mem_cons.mpr ⟨hfirst _ rfl, hopened⟩) hrest
  | case5 _ _ _ _ ih | case7 _ _ _ _ ih =>
    exact ih (List.forall_mem_of_forall_mem_cons hopened) (List.forall_mem_of_forall_mem_cons h)
  | case6 | case8 => exact .error (h _ List.mem_cons_self _ rfl)
  | case9 _ _ _ _ _ _ _ ih => exact ih hopened (List.forall_mem_of_forall_mem_cons h)

theorem checkOpening_pointsOnly {r : Registry} {function : Option String} {next : Option Token}
    {position : Nat} : PointsOnly text (checkOpening r function next position) := by
  cases function with
  | some f => exact .ite (.ite (.error trivial) (.ok _)) (.ite (.error trivial) (.ok _))
  | none => exact .ite (.error trivial) (.ok _)

theorem checkComma_pointsOnly {calls : List (Option String)} {next : Option Token}
    {position : Nat} : PointsOnly text (checkComma calls next position) := by
  unfold checkComma
  split
  · exact .ite (.error trivial) (.ok _)
  · exact .error trivial

theorem checkStar_pointsOnly {calls : List (Option String)} {previous next : Option Token}
    {position : Nat} : PointsOnly text (checkStar calls previous next position) :=
  .ite (.ite (.ok _) (.error trivial)) (.ok _)

/-- Faults of argument slots are of kinds that name no character. -/
theorem checkArgumentsFrom_pointsOnly {r : Registry} {previous : Option Token}
    {calls : List (Option String)} :
    PointsOnly text (checkArgumentsFrom r previous calls tokens) := by
  fun_induction checkArgumentsFrom r previous calls tokens with
  | case1 => exact .ok _
  | case2 => exact .error (checkOpening_pointsOnly _ ‹_›)
  | case5 => exact .error (checkComma_pointsOnly _ ‹_›)
  | case7 => exact .error (checkStar_pointsOnly _ ‹_›)
  | case3 | case4 | case6 | case8 | case9 => assumption

theorem unknownReferences_pointsOnly {declared unknown : List String} :
    PointsOnly text (unknownReferences declared unknown tokens) := by
  fun_induction unknownReferences declared unknown tokens with
  | case1 | case3 => assumption
  | case2 => exact .error trivial
  | case4 => exact .ok _

theorem checkVariables_pointsOnly {declared : List String} :
    PointsOnly text (checkVariables declared tokens) := by
  unfold checkVariables
  split
  · rename_i e he
    exact .error (unknownReferences_pointsOnly e he)
  · exact .ok _
  · exact .error trivial

/-- An operator out of place is reported where it, or the operator before it, stands. -/
theorem checkOperator_pointsOnly {previous : Option Placed} {operator : Symbol} {position : Nat}
    {next : Option Token} (hoperator : operator.isOperator = true)
    (h : PlacedIn text (previous.toList ++ ⟨.symbol operator, position⟩ :: tokens)) :
    PointsOnly text (checkOperator previous operator position next) := by
  have hchar : text[position]? = some operator.char :=
    h.symbols ⟨.symbol operator, position⟩ (by simp) operator rfl
  -- What precedes is an operator too, and the one checked is its neighbour.
  have hbefore : ∀ s i, previous = some ⟨.symbol s, i⟩ →
      (Error.consecutiveOperators s.char operator.char i).PointsInto text := by
    rintro s i rfl
    obtain ⟨hneighbours, -⟩ := List.isChain_cons_cons.mp h.neighbours
    exact ⟨h.symbols _ List.mem_cons_self s rfl, position, hneighbours s operator rfl rfl, hchar⟩
  unfold checkOperator
  dsimp only
  split
  · -- The fault is on the left of the operator.
    rename_i e he
    refine .error ?_
    split at he
    · cases he
    · split at he
      · cases he
        trivial
      · split at he
        · cases he
          exact hbefore _ _ rfl
        · split at he
          · cases he
            trivial
          · cases he
      · cases he
  · exact .ite (.error ⟨operator, hoperator, hchar⟩) (.ok _)

/-- The tokens that are left keep their places. -/
theorem PlacedIn.of_append {before : List Placed} (h : PlacedIn text (before ++ tokens)) :
    PlacedIn text tokens where
  symbols := fun t ht => h.symbols t (List.mem_append_right _ ht)
  neighbours := h.neighbours.right_of_append

theorem checkOperatorsFrom_pointsOnly {previous : Option Placed}
    (h : PlacedIn text (previous.toList ++ tokens)) :
    PointsOnly text (checkOperatorsFrom previous tokens) := by
  fun_induction checkOperatorsFrom previous tokens with
  | case1 => exact .ok _
  | case2 previous token position rest next verdict e he =>
    -- The first fault found is the one reported, so only its own token has to be looked at.
    refine .error ?_
    cases token with
    | symbol s =>
      by_cases hskip : !s.isOperator ||
          (s == .star && isWildcardBetween (previous.map (·.token)) next)
      · -- A symbol that is skipped is at no fault.
        simp only [verdict, if_pos hskip, reduceCtorEq] at he
      · have hoperator : s.isOperator = true := by
          by_contra hs
          simp [hs] at hskip
        simp only [verdict, if_neg hskip] at he
        exact checkOperator_pointsOnly hoperator h e he
    | number | text | name | reference => simp only [verdict, reduceCtorEq] at he
  | case3 _ _ _ _ _ _ _ ih => exact ih h.of_append

theorem quickCheck_pointsOnly {r : Registry} {declared : List String} {formula : String} :
    PointsOnly (trimChars formula.toList) (quickCheck r declared formula) := by
  unfold quickCheck
  have hmalformed : PointsOnly (trimChars formula.toList) (Token.scan (trimChars formula.toList)) :=
    scanFrom_failsOnly.mono fun _ => Error.IsMalformed.pointsInto
  refine .ite (.error trivial) (hmalformed.bind_of_ok fun tokens hscan => ?_)
  have hplaced := placedIn_of_scan hscan
  refine (balanceFrom_pointsOnly (List.forall_mem_nil _) hplaced.symbols).bind fun _ => ?_
  refine checkArgumentsFrom_pointsOnly.bind fun _ => ?_
  exact (checkOperatorsFrom_pointsOnly hplaced).bind fun _ => checkVariables_pointsOnly

/-! ## §3 The scanner and the quick check -/

/-- **Nothing is lost, and positions are true.** The tokens of a formula are those of words that
cover it but for blanks, in order and without overlap, each from the recorded offset on, and no
other token is spelled as a word is. A position in an error of the quick check is the offset, in the
trimmed formula, of the delimiter or operator that the error is about. -/
theorem scan_keepsPositions :
    (∀ text tokens, Token.scan text = .ok tokens →
      ∃ words : List Word, words.map Word.placed = tokens ∧ Tiles text 0 text.length words ∧
        ∀ w ∈ words, ∀ next t, Spells next w.chars t →
          t.isReference = w.token.isReference → t = w.token) ∧
    ∀ r declared formula error, quickCheck r declared formula = .error error →
      error.PointsInto (trimChars formula.toList) := by
  constructor
  · intro text tokens h
    obtain ⟨words, hwords, htiles⟩ := exists_tiles_of_scanFrom h List.drop_zero
    rw [Nat.zero_add] at htiles
    exact ⟨words, hwords, htiles, fun w hw next t ht => ht.unique (htiles.isIn w hw).2⟩
  · exact fun r declared formula => quickCheck_pointsOnly

/-- A formula with two operators in a row, behind a name that is longer in bytes than in
characters. -/
private theorem scan_operators :
    Token.scan "\x7b金额\x7d + * \x7b数\x7d".toList =
      .ok [⟨.symbol .leftBrace, 0⟩, ⟨.reference "金额", 1⟩, ⟨.symbol .rightBrace, 3⟩,
        ⟨.symbol .plus, 5⟩, ⟨.symbol .star, 7⟩, ⟨.symbol .leftBrace, 9⟩, ⟨.reference "数", 10⟩,
        ⟨.symbol .rightBrace, 11⟩] := by
  cbv

private theorem quickCheck_operators :
    quickCheck .builtin ["金额", "数"] " \x7b金额\x7d + * \x7b数\x7d" =
      .error (.consecutiveOperators '+' '*' 5) := by
  have htrim : trimChars " \x7b金额\x7d + * \x7b数\x7d".toList =
      "\x7b金额\x7d + * \x7b数\x7d".toList := by decide +kernel
  rw [quickCheck, htrim, scan_operators]
  rfl

theorem scan_keepsPositions_operators :
    (∃ words : List Word, words.map Word.start = [0, 1, 3, 5, 7, 9, 10, 11] ∧
      Tiles "\x7b金额\x7d + * \x7b数\x7d".toList 0 12 words) ∧
    quickCheck .builtin ["金额", "数"] " \x7b金额\x7d + * \x7b数\x7d" =
      .error (.consecutiveOperators '+' '*' 5) ∧
    (Error.consecutiveOperators '+' '*' 5).PointsInto
      (trimChars " \x7b金额\x7d + * \x7b数\x7d".toList) := by
  obtain ⟨hscan, hquick⟩ := scan_keepsPositions
  obtain ⟨words, hwords, htiles, -⟩ := hscan _ _ scan_operators
  refine ⟨⟨words, ?_, htiles⟩, quickCheck_operators, hquick _ _ _ _ quickCheck_operators⟩
  have hstarts := congrArg (List.map Placed.position) hwords
  rwa [List.map_map] at hstarts

end BandedReport.Formula
