import Mathlib.Data.List.Chain
import BandedReport.Proofs.Decimal.Arithmetic
import BandedReport.Proofs.Formula.Scanning

/-!
# Where the words of a formula stand

The scanner loses nothing. Every token was read from a stretch of the formula that begins at the
recorded offset; the stretches do not overlap, they are in the order of the tokens, and what stands
between them is blank.

* `Spells` says which token a stretch of characters stands for, `Spells.unique` that it is one;
* `Tiles` says that words cover a part of a text but for its blanks, and `Tiles.append` puts parts
  together;
* `exists_tiles_of_scanFrom` is the result on the scanner.
-/

namespace BandedReport.Formula

/-! ## §1 What characters stand for -/

/-- Is the token the name between two braces? -/
def Token.isReference : Token → Bool
  | .reference _ => true
  | _ => false

/-- The characters stand for the token, and the next character of the formula, if there is one,
does not prolong them. A symbol is its character, a text is what stands between the quotes, a
number is the double nearest to what its digits are worth, a function name is taken as it is, and
what stands between braces is a name without the blanks around it. -/
inductive Spells (next : Option Char) : List Char → Token → Prop where
  | symbol (s : Symbol) : Spells next [s.char] (.symbol s)
  | text {quote : Char} {body : List Char} : quote = '"' ∨ quote = '\'' → quote ∉ body →
      Spells next (quote :: (body ++ [quote])) (.text (String.ofList body))
  | whole {digits : List Char} {x : Float} : IsDigits digits →
      (∀ c ∈ next, c.isDigit = false ∧ c ≠ '.') → IsNearest x .positive (digitsValue digits) →
      Spells next digits (.number x)
  | point {whole fraction : List Char} {x : Float} : IsDigits (whole ++ fraction) →
      (∀ c ∈ next, c.isDigit = false) →
      IsNearest x .positive (digitsValue (whole ++ fraction) / 10 ^ fraction.length) →
      Spells next (whole ++ '.' :: fraction) (.number x)
  | name {chars : List Char} : isIdentifier chars = true → (∀ c ∈ next, isNameChar c = false) →
      Spells next chars (.name (String.ofList chars))
  | reference {chars : List Char} : chars ≠ [] → (∀ c ∈ chars, isBrace c = false) →
      (∀ c ∈ next, isBrace c = true) →
      Spells next chars (.reference (String.ofList (trimChars chars)))

/-- The number of a literal is the double nearest to what its digits are worth. -/
theorem isNearest_literalValue {whole fraction chars : List Char}
    (hwhole : chars.takeWhile (· != '.') = whole)
    (hfraction : (chars.dropWhile (· != '.')).drop 1 = fraction) :
    IsNearest (literalValue chars) .positive
      (digitsValue (whole ++ fraction) / 10 ^ fraction.length) := by
  have hnearest := Decimal.isNearest_toFloat
    (d := ⟨false, digitsValue (whole ++ fraction), -(fraction.length : ℤ)⟩) (s := .positive) rfl
  have hsize : (Decimal.mk false (digitsValue (whole ++ fraction))
      (-(fraction.length : ℤ))).size = digitsValue (whole ++ fraction) / 10 ^ fraction.length := by
    rw [Decimal.size, zpow_neg, zpow_natCast, div_eq_mul_inv]
  rw [hsize] at hnearest
  rwa [literalValue, hwhole, hfraction]

theorem isNearest_digits {digits : List Char} (h : ∀ c ∈ digits, c.isDigit = true) :
    IsNearest (literalValue digits) .positive (digitsValue digits) := by
  have hpoint : ∀ c ∈ digits, (c != '.') = true := fun c hc => by
    rw [bne, beq_point_of_isDigit (h c hc)]
    rfl
  have hnearest := isNearest_literalValue (List.takeWhile_eq_self_iff.mpr hpoint)
    (congrArg (List.drop 1) (List.dropWhile_eq_nil_iff.mpr hpoint))
  rwa [List.drop_nil, List.append_nil, List.length_nil, pow_zero, div_one] at hnearest

theorem isNearest_point {whole fraction : List Char} (h : ∀ c ∈ whole, c.isDigit = true) :
    IsNearest (literalValue (whole ++ '.' :: fraction)) .positive
      (digitsValue (whole ++ fraction) / 10 ^ fraction.length) := by
  have hpoint : ∀ c ∈ whole, (c != '.') = true := fun c hc => by
    rw [bne, beq_point_of_isDigit (h c hc)]
    rfl
  refine isNearest_literalValue ?_ ?_
  · rw [List.takeWhile_append_of_pos hpoint, List.takeWhile_cons_of_neg (by simp), List.append_nil]
  · rw [List.dropWhile_append_of_pos hpoint, List.dropWhile_cons_of_neg (by simp)]
    rfl

/-- The token of the characters of a word that is no name between braces. -/
def token? : List Char → Option Token
  | [] => none
  | c :: rest =>
    match Symbol.ofChar? c with
    | some s => some (.symbol s)
    | none =>
      if c == '"' || c == '\'' then some (.text (String.ofList rest.dropLast))
      else if isNameStart c then some (.name (String.ofList (c :: rest)))
      else some (.number (literalValue (c :: rest)))

theorem token?_number {c : Char} {rest : List Char} (hc : c.isDigit = true ∨ c = '.') :
    token? (c :: rest) = some (.number (literalValue (c :: rest))) := by
  rcases hc with hc | rfl
  · simp only [token?, ofChar?_of_isDigit hc, beq_quote_of_isDigit hc, isNameStart_of_isDigit hc,
      Bool.false_eq_true, if_false]
  · have hname : isNameStart '.' = false := by decide +kernel
    simp [token?, Symbol.ofChar?, hname]

namespace Spells

variable {next next' : Option Char} {chars : List Char} {t t' : Token}

theorem token?_eq (h : Spells next chars t) (href : t.isReference = false) :
    token? chars = some t := by
  -- The first character decides what is read, and each spelling has its own.
  cases h with
  | symbol s => simp only [token?, Symbol.ofChar?_char]
  | @text quote body hquote hbody =>
    have hsymbol : Symbol.ofChar? quote = none := by rcases hquote with rfl | rfl <;> rfl
    have hquote : (quote == '"' || quote == '\'') = true := by
      simpa only [Bool.or_eq_true, beq_iff_eq] using hquote
    simp only [token?, hsymbol, hquote, if_true, List.dropLast_concat]
  | whole hdigits hnext hx =>
    -- A number without a point is read from its digits, and the nearest double is unique.
    obtain ⟨c, rest, rfl⟩ := List.exists_cons_of_ne_nil hdigits.1
    rw [token?_number (.inl (hdigits.2 c List.mem_cons_self)),
      (isNearest_digits hdigits.2).eq hx]
  | @point whole fraction x hdigits hnext hx =>
    have hwhole : ∀ c ∈ whole, c.isDigit = true := fun c hc =>
      hdigits.2 c (List.mem_append_left _ hc)
    rw [← (isNearest_point hwhole).eq hx]
    -- With a point, the number begins with a digit or with the point itself.
    cases whole with
    | nil => exact token?_number (.inr rfl)
    | cons c rest => exact token?_number (.inl (hwhole c List.mem_cons_self))
  | name hname hnext =>
    cases chars with
    | nil => cases hname
    | cons c rest =>
      rw [isIdentifier, Bool.and_eq_true] at hname
      simp only [token?, ofChar?_of_isNameStart hname.1, beq_quote_of_isNameStart hname.1, hname.1,
        Bool.false_eq_true, if_false, if_true]
  | reference => cases href

/-- Digits with a point among them or at an end. -/
theorem literal {whole fraction : List Char} (hwhole : ∀ c ∈ whole, c.isDigit = true)
    (hfraction : ∀ c ∈ fraction, c.isDigit = true) (hne : whole ++ fraction ≠ [])
    (hnext : ∀ c ∈ next, c.isDigit = false) :
    Spells next (whole ++ '.' :: fraction)
      (.number (literalValue (whole ++ '.' :: fraction))) :=
  .point ⟨hne, List.forall_mem_append.mpr ⟨hwhole, hfraction⟩⟩ hnext (isNearest_point hwhole)

/-- Characters stand for one token, in braces and outside of them. -/
theorem unique (h : Spells next chars t) (h' : Spells next' chars t')
    (href : t.isReference = t'.isReference) : t = t' := by
  -- What is no reference is read from its characters.
  cases ht : t.isReference with
  | false =>
    rw [ht] at href
    exact Option.some.inj ((h.token?_eq ht).symm.trans (h'.token?_eq href.symm))
  | true =>
    rw [ht] at href
    -- A reference has the name between its braces, so it is the same one.
    cases h with
    | reference =>
      cases h' with
      | reference => rfl
      | symbol | text | whole | point | name => cases href
    | symbol | text | whole | point | name => cases ht

end Spells

/-! ## §2 Words of a text -/

/-- A token and the stretch of a text it was read from. -/
structure Word where
  token : Token
  start : Nat
  chars : List Char

namespace Word

/-- The offset behind the last character. -/
def stop (w : Word) : Nat := w.start + w.chars.length

theorem start_le_stop (w : Word) : w.start ≤ w.stop := Nat.le_add_right _ _

/-- What the scanner records of a word. -/
def placed (w : Word) : Placed := ⟨w.token, w.start⟩

/-- The characters of the word stand in the text from its start on, and stand for its token. -/
def IsIn (w : Word) (text : List Char) : Prop :=
  w.chars <+: text.drop w.start ∧ Spells text[w.stop]? w.chars w.token

/-- Does the offset lie in the word? -/
def Covers (w : Word) (i : Nat) : Prop := w.start ≤ i ∧ i < w.stop

end Word

variable {text : List Char} {position : Nat}

theorem drop_of_append {chars tail : List Char} (h : text.drop position = chars ++ tail) :
    text.drop (position + chars.length) = tail := by
  rw [← List.drop_drop, h, List.drop_left]

theorem drop_of_cons {c : Char} {rest : List Char} (h : text.drop position = c :: rest) :
    text.drop (position + 1) = rest := by
  rw [← List.tail_drop, h, List.tail_cons]

/-- A word that is the next to be read. -/
theorem isIn_of_append {token : Token} {chars tail : List Char}
    (h : text.drop position = chars ++ tail) (hspells : Spells tail.head? chars token) :
    Word.IsIn ⟨token, position, chars⟩ text := by
  refine ⟨?_, ?_⟩
  · show chars <+: text.drop position
    rw [h]
    exact List.prefix_append chars tail
  · show Spells text[position + chars.length]? chars token
    rwa [← List.head?_drop, drop_of_append h]

/-- The words cover a part of a text but for its blanks. They stand in the part, in order and
without overlap, and a name stands wherever, and only where, an opening brace is followed by more
than a brace. -/
structure Tiles (text : List Char) (start stop : Nat) (words : List Word) : Prop where
  le : start ≤ stop
  isIn : ∀ w ∈ words, w.IsIn text
  within : ∀ w ∈ words, start ≤ w.start ∧ w.stop ≤ stop
  ordered : words.Pairwise fun w w' => w.stop ≤ w'.start
  blank : ∀ i, start ≤ i → i < stop → (∀ w ∈ words, ¬ w.Covers i) →
    ∀ c ∈ text[i]?, isBlank c = true
  opened : ∀ w ∈ words, w.token.isReference = true →
    ∃ brace ∈ words, brace.token = .symbol .leftBrace ∧ brace.stop = w.start
  named : ∀ brace ∈ words, brace.token = .symbol .leftBrace →
    (∃ c ∈ text[brace.stop]?, isBrace c = false) →
    ∃ w ∈ words, w.token.isReference = true ∧ w.start = brace.stop

namespace Tiles

variable {start middle stop : Nat} {words words' : List Word}

theorem nil (text : List Char) (start : Nat) : Tiles text start start [] where
  le := le_rfl
  isIn := List.forall_mem_nil _
  within := List.forall_mem_nil _
  ordered := .nil
  blank := fun _ hi hi' => absurd hi' (not_lt.mpr hi)
  opened := List.forall_mem_nil _
  named := List.forall_mem_nil _

/-- A blank alone. -/
theorem skip (h : ∀ c ∈ text[start]?, isBlank c = true) : Tiles text start (start + 1) [] where
  le := Nat.le_succ start
  isIn := List.forall_mem_nil _
  within := List.forall_mem_nil _
  ordered := .nil
  blank := fun i hi hi' _ => by rwa [Nat.le_antisymm (Nat.le_of_lt_succ hi') hi]
  opened := List.forall_mem_nil _
  named := List.forall_mem_nil _

/-- One word that is neither a name between braces nor the brace in front of one. -/
theorem word {w : Word} (hin : w.IsIn text) (href : w.token.isReference = false)
    (hbrace : w.token = .symbol .leftBrace → ∀ c ∈ text[w.stop]?, isBrace c = true) :
    Tiles text w.start w.stop [w] where
  le := w.start_le_stop
  isIn := List.forall_mem_singleton.mpr hin
  within := List.forall_mem_singleton.mpr ⟨le_rfl, le_rfl⟩
  ordered := List.pairwise_singleton _ w
  blank := fun _ hi hi' hout => absurd ⟨hi, hi'⟩ (hout w List.mem_cons_self)
  opened := List.forall_mem_singleton.mpr fun h => by rw [href] at h; cases h
  named := List.forall_mem_singleton.mpr fun htoken ⟨c, hc, hc'⟩ => by
    rw [hbrace htoken c hc] at hc'
    cases hc'

/-- An opening brace with the name that follows it. -/
theorem reference {brace w : Word} (hbrace : brace.IsIn text) (hin : w.IsIn text)
    (htoken : brace.token = .symbol .leftBrace) (href : w.token.isReference = true)
    (hstart : brace.stop = w.start) : Tiles text brace.start w.stop [brace, w] where
  le := brace.start_le_stop.trans (hstart.le.trans w.start_le_stop)
  isIn := by
    -- Both words are where the text has them.
    rintro v hv
    obtain rfl | rfl := by simpa using hv
    exacts [hbrace, hin]
  within := by
    rintro v hv
    obtain rfl | rfl := by simpa using hv
    · exact ⟨le_rfl, hstart.le.trans w.start_le_stop⟩
    · exact ⟨brace.start_le_stop.trans hstart.le, le_rfl⟩
  ordered := by simpa using hstart.le
  -- There is no gap between the two.
  blank := by
    intro i hi hi' hout
    simp only [List.forall_mem_cons, Word.Covers] at hout
    omega
  -- The name has the brace in front, and the brace has the name behind it.
  opened := by
    rintro v hv hv'
    obtain rfl | rfl := by simpa using hv
    · rw [htoken] at hv'
      cases hv'
    · exact ⟨brace, List.mem_cons_self, htoken, hstart⟩
  named := by
    rintro v hv hv' -
    obtain rfl | rfl := by simpa using hv
    · exact ⟨w, by simp, href, hstart.symm⟩
    · rw [hv'] at href
      cases href

/-- Parts that meet are put together. -/
theorem append (h : Tiles text start middle words) (h' : Tiles text middle stop words') :
    Tiles text start stop (words ++ words') where
  le := h.le.trans h'.le
  isIn := List.forall_mem_append.mpr ⟨h.isIn, h'.isIn⟩
  within := by
    -- Each word stays between the offsets of its own half.
    refine List.forall_mem_append.mpr ⟨fun w hw => ?_, fun w hw => ?_⟩
    · exact ⟨(h.within w hw).1, (h.within w hw).2.trans h'.le⟩
    · exact ⟨h.le.trans (h'.within w hw).1, (h'.within w hw).2⟩
  ordered := List.pairwise_append.mpr ⟨h.ordered, h'.ordered, fun w hw w' hw' =>
    (h.within w hw).2.trans (h'.within w' hw').1⟩
  -- An offset lies in one of the halves and is blank there.
  blank := by
    intro i hi hi' hout
    obtain ⟨hout, hout'⟩ := List.forall_mem_append.mp hout
    rcases lt_or_ge i middle with hlt | hge
    · exact h.blank i hi hlt hout
    · exact h'.blank i hge hi' hout'
  -- Braces and names belong together within a half, and they stay together.
  opened := by
    refine List.forall_mem_append.mpr ⟨fun w hw href => ?_, fun w hw href => ?_⟩
    · obtain ⟨brace, hbrace, hrest⟩ := h.opened w hw href
      exact ⟨brace, List.mem_append_left _ hbrace, hrest⟩
    · obtain ⟨brace, hbrace, hrest⟩ := h'.opened w hw href
      exact ⟨brace, List.mem_append_right _ hbrace, hrest⟩
  named := by
    refine List.forall_mem_append.mpr ⟨fun b hb htoken hc => ?_, fun b hb htoken hc => ?_⟩
    · obtain ⟨w, hw, hrest⟩ := h.named b hb htoken hc
      exact ⟨w, List.mem_append_left _ hw, hrest⟩
    · obtain ⟨w, hw, hrest⟩ := h'.named b hb htoken hc
      exact ⟨w, List.mem_append_right _ hw, hrest⟩

/-- A word in front of what is covered. -/
theorem cons {token : Token} {chars tail : List Char}
    (h : Tiles text (position + chars.length) (position + chars.length + tail.length) words)
    (hchars : text.drop position = chars ++ tail) (hspells : Spells tail.head? chars token)
    (href : token.isReference = false)
    (hbrace : token = .symbol .leftBrace → ∀ c ∈ tail.head?, isBrace c = true) :
    Tiles text position (position + (chars ++ tail).length)
      (⟨token, position, chars⟩ :: words) := by
  have hword : Tiles text position (position + chars.length) [⟨token, position, chars⟩] := by
    refine word (isIn_of_append hchars hspells) href fun htoken => ?_
    show ∀ c ∈ text[position + chars.length]?, isBrace c = true
    rw [← List.head?_drop, drop_of_append hchars]
    exact hbrace htoken
  rw [List.length_append, ← Nat.add_assoc]
  exact hword.append h

/-- A symbol in front of what is covered. -/
theorem symbol {s : Symbol} {tail : List Char}
    (h : Tiles text (position + 1) (position + 1 + tail.length) words)
    (hchars : text.drop position = s.char :: tail)
    (hbrace : s = .leftBrace → ∀ c ∈ tail.head?, isBrace c = true) :
    Tiles text position (position + (s.char :: tail).length)
      (⟨.symbol s, position, [s.char]⟩ :: words) := by
  have hfront : text.drop position = [s.char] ++ tail := hchars
  exact h.cons hfront (.symbol s) rfl fun htoken => hbrace (Token.symbol.inj htoken)

/-- An opening brace, and the name behind it if there is one, in front of what is covered. -/
theorem braced {name tail : List Char}
    (h : Tiles text (position + 1 + name.length) (position + 1 + name.length + tail.length) words)
    (hchars : text.drop position = Symbol.leftBrace.char :: (name ++ tail))
    (hname : ∀ c ∈ name, isBrace c = false) (htail : ∀ c ∈ tail.head?, isBrace c = true) :
    ∃ words' : List Word,
      words'.map Word.placed =
        (⟨.symbol .leftBrace, position⟩ ::
          if name.isEmpty then []
          else [⟨.reference (String.ofList (trimChars name)), position + 1⟩]) ++
        words.map Word.placed ∧
      Tiles text position (position + (Symbol.leftBrace.char :: (name ++ tail)).length) words' := by
  -- Blanks between braces leave no word.
  by_cases hempty : name = []
  · subst hempty
    exact ⟨_ :: words, rfl, h.symbol hchars fun _ => htail⟩
  · have hfront : text.drop position = [Symbol.leftBrace.char] ++ (name ++ tail) := hchars
    have hbrace := isIn_of_append hfront (.symbol .leftBrace)
    -- The name is a word of its own, from the brace to the next one.
    have hin := isIn_of_append (drop_of_append hfront) (.reference hempty hname htail)
    have hpair := (reference hbrace hin rfl rfl rfl).append h
    have hlength : position + (Symbol.leftBrace.char :: (name ++ tail)).length =
        position + 1 + name.length + tail.length := by
      simp only [List.length_cons, List.length_append]
      omega
    rw [hlength, if_neg (by simpa using hempty)]
    exact ⟨_, rfl, hpair⟩

end Tiles

/-! ## §3 The scanner -/

/-- What a stretch leaves of a list has its length. -/
private theorem take_of_append {rest front tail : List Char} (h : front ++ tail = rest) :
    rest.take (rest.length - tail.length) = front := by
  rw [← h, List.length_append, Nat.add_sub_cancel, List.take_left]

private theorem head?_dropWhile_eq_false {p : Char → Bool} {chars : List Char} :
    ∀ c ∈ (chars.dropWhile p).head?, p c = false := by
  intro c hc
  have hhead := List.head?_dropWhile_not p chars
  rw [Option.mem_def.mp hc] at hhead
  simpa using hhead

/-- The characters of a number, which begins with a digit or with a point and a digit. -/
theorem spells_numberSpan {c : Char} {rest : List Char} (h : startsNumber c rest = true) :
    (numberSpan c rest).1 ++ (numberSpan c rest).2 = c :: rest ∧
      Spells (numberSpan c rest).2.head? (numberSpan c rest).1
        (.number (literalValue (numberSpan c rest).1)) := by
  have hdigits : ∀ d ∈ rest.takeWhile Char.isDigit, d.isDigit = true :=
    fun d hd => List.mem_takeWhile_imp hd
  have happend := List.takeWhile_append_dropWhile (p := Char.isDigit) (l := rest)
  -- The first character is the point, or it is a digit.
  by_cases hpoint : c = '.'
  · -- A point; the digits behind it are the fraction.
    subst hpoint
    have htake := take_of_append happend
    simp only [numberSpan, beq_self_eq_true, if_true, htake]
    refine ⟨by rw [List.cons_append, happend], ?_⟩
    have hne : rest.takeWhile Char.isDigit ≠ [] := by
      cases rest with
      | nil => cases h
      | cons d rest =>
        have hd : d.isDigit = true := by simpa [startsNumber] using h
        rw [List.takeWhile_cons_of_pos hd]
        exact List.cons_ne_nil _ _
    exact .literal (List.forall_mem_nil _) hdigits hne head?_dropWhile_eq_false
  · have hc : c.isDigit = true := by simpa [startsNumber, hpoint] using h
    have hwhole : ∀ d ∈ c :: rest.takeWhile Char.isDigit, d.isDigit = true :=
      List.forall_mem_cons.mpr ⟨hc, hdigits⟩
    have hne : (c == '.') = false := beq_eq_false_iff_ne.mpr hpoint
    simp only [numberSpan, hne, Bool.false_eq_true, if_false, afterDigits]
    split
    · -- Digits, a point and the digits behind it.
      rename_i fraction hfraction
      have hrest : (rest.takeWhile Char.isDigit ++ '.' :: fraction.takeWhile Char.isDigit) ++
          fraction.dropWhile Char.isDigit = rest := by
        rw [List.append_assoc, List.cons_append, List.takeWhile_append_dropWhile, ← hfraction,
          happend]
      rw [take_of_append hrest]
      refine ⟨by rw [List.cons_append, hrest], ?_⟩
      exact .literal hwhole (fun d hd => List.mem_takeWhile_imp hd) (List.cons_ne_nil _ _)
        head?_dropWhile_eq_false
    · -- Digits alone.
      rename_i hother
      rw [take_of_append happend]
      refine ⟨by rw [List.cons_append, happend], ?_⟩
      refine Spells.whole ⟨List.cons_ne_nil _ _, hwhole⟩ (fun d hd => ?_) (isNearest_digits hwhole)
      refine ⟨head?_dropWhile_eq_false d hd, ?_⟩
      rintro rfl
      obtain ⟨fraction, hfraction⟩ := List.head?_eq_some_iff.mp hd
      exact hother fraction hfraction

/-- What the scanner reads as a word stands for it; it is neither a symbol nor a name between
braces. -/
theorem spells_of_readWord {c : Char} {rest tail : List Char} {token : Token}
    (h : readWord position c rest = .ok (token, tail)) :
    ∃ chars, chars ++ tail = c :: rest ∧ Spells tail.head? chars token ∧
      token.isReference = false ∧ ∀ s, token ≠ .symbol s := by
  unfold readWord at h
  split at h
  · rename_i hquote
    have hquote' : c = '"' ∨ c = '\'' := by
      simpa only [Bool.or_eq_true, beq_iff_eq] using hquote
    split at h
    · cases h
    · -- The text ends at the first quote of its kind.
      rename_i d _ hd
      cases h
      have hd' : d = c := by
        have hmem : d ∈ (rest.dropWhile (· != c)).head? := by
          rw [hd]
          rfl
        simpa using head?_dropWhile_eq_false d hmem
      subst hd'
      refine ⟨d :: (rest.takeWhile (· != d) ++ [d]), ?_, .text hquote' fun hmem => ?_, rfl, by simp⟩
      · rw [List.cons_append, List.append_assoc, List.singleton_append, ← hd,
          List.takeWhile_append_dropWhile]
      · simpa using List.mem_takeWhile_imp hmem
  · -- A digit or a point starts a number.
    split at h
    · rename_i hnumber
      cases h
      obtain ⟨happend, hspells⟩ := spells_numberSpan hnumber
      exact ⟨_, happend, hspells, rfl, by simp⟩
    · -- A letter starts a name, which goes on as long as it can.
      split at h
      · rename_i hname
        cases h
        refine ⟨c :: rest.takeWhile isNameChar, ?_, .name ?_ head?_dropWhile_eq_false, rfl, by simp⟩
        · rw [List.cons_append, List.takeWhile_append_dropWhile]
        · rw [isIdentifier, hname, List.all_takeWhile]
          rfl
      · cases h

/-- The tokens that the scanner makes of the rest of a text were read from words that cover it. -/
theorem exists_tiles_of_scanFrom {chars : List Char} {tokens : List Placed}
    (h : scanFrom position chars = .ok tokens) (hchars : text.drop position = chars) :
    ∃ words : List Word, words.map Word.placed = tokens ∧
      Tiles text position (position + chars.length) words := by
  -- The cases are the branches of the scanner: blanks, errors, braces, symbols and words.
  fun_induction scanFrom position chars generalizing tokens with
  | case1 position =>
    cases h
    exact ⟨[], rfl, .nil text position⟩
  | case2 position c rest hblank ih =>
    -- A blank is stepped over and belongs to no word.
    obtain ⟨words, hwords, htiles⟩ := ih h (drop_of_cons hchars)
    refine ⟨words, hwords, ?_⟩
    have hskip : Tiles text position (position + 1) [] := .skip fun d hd => by
      rw [← List.head?_drop, hchars] at hd
      cases hd
      exact hblank
    have hall := hskip.append htiles
    rwa [List.nil_append, Nat.add_assoc, Nat.add_comm 1] at hall
  | case3 | case5 | case7 | case8 => cases h
  | case4 position c rest _ hsymbol name brace inner more hmore =>
    -- The name between the braces is one word, and the words behind it follow.
    rename_i ih
    cases h
    obtain rfl := eq_char_of_ofChar? hsymbol
    have happend : name ++ rest.dropWhile (!isBrace ·) = rest := List.takeWhile_append_dropWhile
    have hnext : ∀ c ∈ (rest.dropWhile (!isBrace ·)).head?, isBrace c = true := fun c hc => by
      simpa using head?_dropWhile_eq_false c hc
    have hrest : text.drop (position + 1) = name ++ rest.dropWhile (!isBrace ·) :=
      (drop_of_cons hchars).trans happend.symm
    obtain ⟨words, rfl, htiles⟩ := ih hmore (drop_of_append hrest)
    rw [← happend]
    exact htiles.braced (hchars.trans (congrArg _ happend.symm))
      (fun c hc => by simpa using List.mem_takeWhile_imp hc) hnext
  | case6 position c rest _ symbol hne hsymbol more hmore ih =>
    -- A symbol is one word.
    cases h
    obtain rfl := eq_char_of_ofChar? hsymbol
    obtain ⟨words, rfl, htiles⟩ := ih hmore (drop_of_cons hchars)
    exact ⟨_ :: words, rfl, htiles.symbol hchars fun hbrace => absurd hbrace hne⟩
  | case9 position c rest _ _ token tail hread more hmore ih =>
    cases h
    obtain ⟨chars, happend, hspells, href, hsymbol⟩ := spells_of_readWord hread
    rw [← happend] at hchars
    -- The length of the word is what was taken from the text.
    have hstop : position + 1 + (rest.length - tail.length) = position + chars.length := by
      have hlength := congrArg List.length happend
      rw [List.length_append, List.length_cons] at hlength
      have hle := length_readWord_le hread
      omega
    rw [hstop] at hmore ih
    obtain ⟨words, rfl, htiles⟩ := ih hmore (drop_of_append hchars)
    rw [← happend]
    exact ⟨_ :: words, rfl, htiles.cons hchars hspells href fun h => absurd h (hsymbol _)⟩

end BandedReport.Formula
