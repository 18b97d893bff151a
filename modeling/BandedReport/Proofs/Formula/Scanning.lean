import BandedReport.Proofs.Decimal.Numerals
import BandedReport.Proofs.Outcome
import BandedReport.Formula.Scan

/-!
# Scanning words

What the scanner reads of each kind of word, when something stands behind it that does not prolong
it: a blank, a comma, a closing parenthesis or nothing.
-/

namespace BandedReport.Formula

/-! ## §1 Characters -/

/-- The code points of blanks. -/
private def blankCodes : List Nat :=
  [0x9, 0xA, 0xB, 0xC, 0xD, 0x20, 0x85, 0xA0, 0x1680, 0x2000, 0x2001, 0x2002, 0x2003, 0x2004,
    0x2005, 0x2006, 0x2007, 0x2008, 0x2009, 0x200A, 0x2028, 0x2029, 0x202F, 0x205F, 0x3000]

private theorem toNat_mem_blankCodes {c : Char} (h : isBlank c = true) :
    c.toNat ∈ blankCodes := by
  simp only [isBlank, Bool.or_eq_true, Bool.and_eq_true, decide_eq_true_eq, beq_iff_eq] at h
  simp only [blankCodes, List.mem_cons, List.not_mem_nil, or_false]
  omega

/-- No blank begins a name. -/
theorem isNameStart_of_isBlank {c : Char} (h : isBlank c = true) : isNameStart c = false := by
  have hcodes : ∀ n ∈ blankCodes, isNameStart (Char.ofNat n) = false := by decide +kernel
  have hc := hcodes c.toNat (toNat_mem_blankCodes h)
  rwa [Char.ofNat_toNat] at hc

/-! Digits are characters of their own: what begins with one is read as a number. -/

theorem isBlank_of_isDigit {c : Char} (h : c.isDigit = true) : isBlank c = false :=
  forall_isDigit (p := fun c => isBlank c = false) (by decide) h

theorem ofChar?_of_isDigit {c : Char} (h : c.isDigit = true) : Symbol.ofChar? c = none :=
  forall_isDigit (p := fun c => Symbol.ofChar? c = none) (by decide) h

theorem beq_quote_of_isDigit {c : Char} (h : c.isDigit = true) :
    (c == '"' || c == '\'') = false :=
  forall_isDigit (p := fun c => (c == '"' || c == '\'') = false) (by decide) h

theorem isNameStart_of_isDigit {c : Char} (h : c.isDigit = true) : isNameStart c = false :=
  forall_isDigit (p := fun c => isNameStart c = false) (by decide) h

theorem beq_point_of_isDigit {c : Char} (h : c.isDigit = true) : (c == '.') = false :=
  forall_isDigit (p := fun c => (c == '.') = false) (by decide) h

theorem eq_char_of_ofChar? {c : Char} {s : Symbol} (h : Symbol.ofChar? c = some s) :
    c = s.char := by
  unfold Symbol.ofChar? at h
  split at h <;> cases h <;> rfl

/-! A name begins with a character that nothing else begins with. -/

theorem isBlank_of_isNameStart {c : Char} (h : isNameStart c = true) : isBlank c = false := by
  cases hc : isBlank c with
  | false => rfl
  | true =>
    rw [isNameStart_of_isBlank hc] at h
    cases h

theorem ofChar?_of_isNameStart {c : Char} (h : isNameStart c = true) :
    Symbol.ofChar? c = none := by
  cases hc : Symbol.ofChar? c with
  | none => rfl
  | some s =>
    rw [eq_char_of_ofChar? hc] at h
    cases s <;> exact absurd h (by decide)

theorem beq_quote_of_isNameStart {c : Char} (h : isNameStart c = true) :
    (c == '"' || c == '\'') = false := by
  rw [Bool.or_eq_false_iff, beq_eq_false_iff_ne, beq_eq_false_iff_ne]
  constructor <;> rintro rfl <;> exact absurd h (by decide)

theorem startsNumber_of_isNameStart {c : Char} (h : isNameStart c = true) (rest : List Char) :
    startsNumber c rest = false := by
  -- A letter is neither a digit nor the point, and nothing else starts a number.
  have hdigit : c.isDigit = false := by
    cases hc : c.isDigit with
    | false => rfl
    | true =>
      rw [isNameStart_of_isDigit hc] at h
      cases h
  have hpoint : (c == '.') = false := by
    rw [beq_eq_false_iff_ne]
    rintro rfl
    exact absurd h (by decide)
  rw [startsNumber, hdigit, hpoint]
  rfl

/-! ## §2 Steps of the scanner -/

variable {position : Nat} {rest : List Char} {more : List Placed}

theorem scanFrom_blank {c : Char} (h : isBlank c = true) :
    scanFrom position (c :: rest) = scanFrom (position + 1) rest := by
  rw [scanFrom, if_pos h]

theorem scanFrom_symbol {s : Symbol} (hs : s ≠ .leftBrace)
    (h : scanFrom (position + 1) rest = .ok more) :
    scanFrom position (s.char :: rest) = .ok (⟨.symbol s, position⟩ :: more) := by
  have hblank : isBlank s.char = false := by cases s <;> decide
  rw [scanFrom, hblank, if_neg Bool.false_ne_true, Symbol.ofChar?_char]
  cases s with
  | leftBrace => exact absurd rfl hs
  | plus | minus | star | slash | comma | leftParen | rightParen | rightBrace => simp only [h]

/-- A word that begins with neither a blank nor a symbol. -/
theorem scanFrom_word {c : Char} {token : Token} {tail : List Char} (hblank : isBlank c = false)
    (hsymbol : Symbol.ofChar? c = none) (hread : readWord position c rest = .ok (token, tail))
    (h : scanFrom (position + 1 + (rest.length - tail.length)) tail = .ok more) :
    scanFrom position (c :: rest) = .ok (⟨token, position⟩ :: more) := by
  rw [scanFrom, hblank, if_neg Bool.false_ne_true, hsymbol]
  simp only
  -- The word that is read decides what the scanner does.
  split
  · rename_i e he
    rw [hread] at he
    cases he
  · rename_i token' tail' he
    rw [hread] at he
    cases he
    rw [h]

/-- The error says that the text cannot be read. -/
def Error.IsMalformed (e : Error) : Prop := ∃ fault, e = malformed fault

theorem readWord_failsOnly {c : Char} :
    FailsOnly Error.IsMalformed (readWord position c rest) := by
  unfold readWord
  refine .ite ?_ (.ite (.ok _) (.ite (.ok _) (.error ⟨_, rfl⟩)))
  split
  · exact .error ⟨_, rfl⟩
  · exact .ok _

/-- The scanner fails on account of the text alone. -/
theorem scanFrom_failsOnly {chars : List Char} :
    FailsOnly Error.IsMalformed (scanFrom position chars) := by
  -- An error is that of the word read first, or that of the rest.
  fun_induction scanFrom position chars with
  | case1 | case4 | case6 | case9 => exact .ok _
  | case2 _ _ _ _ ih => exact ih
  | case3 =>
    rename_i e he ih
    exact .error (ih e he)
  | case5 _ _ _ _ _ _ _ e he ih => exact .error (ih e he)
  | case7 _ _ _ _ _ e he => exact .error (readWord_failsOnly e he)
  | case8 _ _ _ _ _ _ _ _ e he ih => exact .error (ih e he)

/-! ## §3 Words -/

/-- Nothing follows that would prolong a word. -/
def EndsWord (rest : List Char) : Prop := ∀ c ∈ rest.head?, c = ' ' ∨ c = ',' ∨ c = ')'

/-- A stretch of characters of a class is cut off where the class ends. -/
private theorem span_append {p : Char → Bool} {word : List Char} (rest : List Char)
    (hword : ∀ c ∈ word, p c = true) (hrest : ∀ c ∈ rest.head?, p c = false) :
    (word ++ rest).takeWhile p = word ∧ (word ++ rest).dropWhile p = rest := by
  rw [List.takeWhile_append_of_pos hword, List.dropWhile_append_of_pos hword]
  cases rest with
  | nil => simp
  | cons c tail => simp [hrest c rfl]

/-- A text between quotes, which the text itself does not hold. -/
theorem scanFrom_text {q : Char} {body : List Char} (hq : (q == '"' || q == '\'') = true)
    (hbody : ∀ c ∈ body, c ≠ q)
    (h : scanFrom (position + (body.length + 2)) rest = .ok more) :
    scanFrom position (q :: (body ++ q :: rest)) =
      .ok (⟨.text (String.ofList body), position⟩ :: more) := by
  -- The text ends at its closing quote, since no quote of its kind stands in it.
  obtain ⟨htake, hdrop⟩ := span_append (p := (· != q)) (q :: rest)
    (fun c hc => by simpa using hbody c hc) (by simp)
  have hread : readWord position q (body ++ q :: rest) =
      .ok (.text (String.ofList body), rest) := by
    rw [readWord, if_pos hq, hdrop, htake]
  rw [Bool.or_eq_true, beq_iff_eq, beq_iff_eq] at hq
  -- Neither quote is a blank or a symbol.
  have hblank : isBlank q = false := by rcases hq with rfl | rfl <;> decide
  have hsymbol : Symbol.ofChar? q = none := by rcases hq with rfl | rfl <;> rfl
  refine scanFrom_word hblank hsymbol hread ?_
  -- The body and its two quotes are behind the position.
  have hlength : position + 1 + ((body ++ q :: rest).length - rest.length) =
      position + (body.length + 2) := by
    simp only [List.length_append, List.length_cons]
    omega
  rw [hlength, h]

theorem afterDigits_append {digits : List Char} (hdigits : ∀ c ∈ digits, c.isDigit = true)
    (hrest : EndsWord rest) : afterDigits (digits ++ rest) = rest := by
  have hhead : ∀ c ∈ rest.head?, c.isDigit = false := by
    intro c hc
    rcases hrest c hc with rfl | rfl | rfl <;> rfl
  rw [afterDigits, (span_append rest hdigits hhead).2]
  split
  · rename_i fraction
    rcases hrest '.' rfl with h | h | h <;> cases h
  · rfl

theorem afterDigits_point {digits fraction : List Char}
    (hdigits : ∀ c ∈ digits, c.isDigit = true) (hfraction : ∀ c ∈ fraction, c.isDigit = true)
    (hrest : EndsWord rest) : afterDigits (digits ++ '.' :: (fraction ++ rest)) = rest := by
  have hhead : ∀ c ∈ rest.head?, c.isDigit = false := by
    intro c hc
    rcases hrest c hc with rfl | rfl | rfl <;> rfl
  have hpoint : ∀ c ∈ ('.' :: (fraction ++ rest)).head?, c.isDigit = false := by
    rintro c ⟨⟩
    rfl
  rw [afterDigits, (span_append _ hdigits hpoint).2]
  exact (span_append rest hfraction hhead).2

/-- A numeral. -/
theorem scanFrom_number {chars : List Char} (hchars : Numeral chars) (hrest : EndsWord rest)
    (h : scanFrom (position + chars.length) rest = .ok more) :
    scanFrom position (chars ++ rest) =
      .ok (⟨.number (literalValue chars), position⟩ :: more) := by
  -- A numeral begins with a digit, and what follows its digits is what follows the numeral.
  have hsplit : ∃ d tail, chars = d :: tail ∧ d.isDigit = true ∧
      afterDigits (tail ++ rest) = rest := by
    cases hchars with
    | whole hdigits =>
      obtain ⟨hne, hall⟩ := hdigits
      obtain ⟨d, tail, rfl⟩ := List.exists_cons_of_ne_nil hne
      obtain ⟨hd, htail⟩ := List.forall_mem_cons.mp hall
      exact ⟨d, tail, rfl, hd, afterDigits_append htail hrest⟩
    | @point whole fraction hwhole hfraction =>
      obtain ⟨hne, hall⟩ := hwhole
      obtain ⟨d, tail, rfl⟩ := List.exists_cons_of_ne_nil hne
      obtain ⟨hd, htail⟩ := List.forall_mem_cons.mp hall
      refine ⟨d, tail ++ '.' :: fraction, rfl, hd, ?_⟩
      rw [List.append_assoc, List.cons_append]
      exact afterDigits_point htail hfraction.2 hrest
  obtain ⟨d, tail, rfl, hd, hafter⟩ := hsplit
  -- So the digits are what was read in front of the rest.
  have htake : (tail ++ rest).take ((tail ++ rest).length - rest.length) = tail := by
    simp
  have hread : readWord position d (tail ++ rest) =
      .ok (.number (literalValue (d :: tail)), rest) := by
    -- A digit starts a number, and the point comes behind it if at all.
    have hstarts : startsNumber d (tail ++ rest) = true := by rw [startsNumber, hd, Bool.true_or]
    rw [readWord, beq_quote_of_isDigit hd, if_neg Bool.false_ne_true, if_pos hstarts, numberSpan,
      beq_point_of_isDigit hd, if_neg Bool.false_ne_true, hafter, htake]
  rw [List.cons_append]
  refine scanFrom_word (isBlank_of_isDigit hd) (ofChar?_of_isDigit hd) hread ?_
  have hlength : position + 1 + ((tail ++ rest).length - rest.length) =
      position + (d :: tail).length := by
    simp only [List.length_append, List.length_cons]
    omega
  rw [hlength, h]

/-- The name of a function: a letter or an underscore, then letters, digits, underscores and
points. -/
def isIdentifier : List Char → Bool
  | [] => false
  | c :: rest => isNameStart c && rest.all isNameChar

/-- A name in front of a parenthesis. -/
theorem scanFrom_name {name : List Char} (hname : isIdentifier name = true)
    (h : scanFrom (position + name.length) ('(' :: rest) = .ok more) :
    scanFrom position (name ++ '(' :: rest) =
      .ok (⟨.name (String.ofList name), position⟩ :: more) := by
  cases name with
  | nil => cases hname
  | cons c tail =>
    rw [isIdentifier, Bool.and_eq_true, List.all_eq_true] at hname
    obtain ⟨hc, htail⟩ := hname
    -- The parenthesis ends the name.
    have hparen : ∀ c ∈ ('(' :: rest).head?, isNameChar c = false := by
      rintro c ⟨⟩
      decide +kernel
    obtain ⟨htake, hdrop⟩ := span_append _ htail hparen
    have hread : readWord position c (tail ++ '(' :: rest) =
        .ok (.name (String.ofList (c :: tail)), '(' :: rest) := by
      rw [readWord, beq_quote_of_isNameStart hc, if_neg Bool.false_ne_true,
        startsNumber_of_isNameStart hc, if_neg Bool.false_ne_true, if_pos hc, htake, hdrop]
    rw [List.cons_append]
    refine scanFrom_word (isBlank_of_isNameStart hc) (ofChar?_of_isNameStart hc) hread ?_
    have hlength : position + 1 + ((tail ++ '(' :: rest).length - ('(' :: rest).length) =
        position + (c :: tail).length := by
      simp only [List.length_append, List.length_cons]
      omega
    rw [hlength, h]

/-- A name between braces, with neither blanks around it nor braces in it. -/
theorem scanFrom_reference {name : List Char} (hne : name ≠ [])
    (hbraces : ∀ c ∈ name, isBrace c = false) (htrim : trimChars name = name)
    (h : scanFrom (position + (name.length + 2)) rest = .ok more) :
    ∃ i j, scanFrom position ('\x7b' :: (name ++ '\x7d' :: rest)) =
      .ok (⟨.symbol .leftBrace, position⟩ :: ⟨.reference (String.ofList name), i⟩ ::
        ⟨.symbol .rightBrace, j⟩ :: more) := by
  -- The name reaches to the closing brace, and nothing has to be trimmed off.
  obtain ⟨htake, hdrop⟩ := span_append (p := (!isBrace ·)) ('\x7d' :: rest)
    (fun c hc => by simpa using hbraces c hc) (by simp [isBrace])
  -- That brace is scanned as a symbol of its own.
  have hclose : scanFrom (position + 1 + name.length) ('\x7d' :: rest) =
      .ok (⟨.symbol .rightBrace, position + 1 + name.length⟩ :: more) := by
    refine scanFrom_symbol (s := .rightBrace) nofun ?_
    rw [← h]
    congr 1
    omega
  refine ⟨position + 1, position + 1 + name.length, ?_⟩
  rw [scanFrom, if_neg (by decide)]
  simp only [Symbol.ofChar?, htake, hdrop, hclose, htrim, List.isEmpty_iff, hne, if_false]
  rfl

end BandedReport.Formula
