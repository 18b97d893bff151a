import BandedReport.Proofs.Json.Scalars

/-!
# Reading a JSON text back

A value is written with one item a line and indentation. What is read from the text is the value
again, if all of it denotes something, its integers fit into sixty-four bits and the texts of its
doubles are read back. Reading stops behind the value: whatever follows is left, as long as it does
not continue a number.
-/

namespace BandedReport.Json

/-! ## §1 Blanks -/

/-- The next character is the first one that is not blank. -/
theorem nextChar_of_skipSpace {chars rest : List Char} {c : Char}
    (h : skipSpace chars = c :: rest) : Gives (nextChar chars) c rest := by
  unfold nextChar
  split
  · simp_all
  · rename_i heq
    obtain ⟨rfl, rfl⟩ : _ ∧ _ := by simpa using heq.symm.trans h
    exact ⟨_, rfl⟩

theorem nextChar_cons {c : Char} (h : isSpace c = false) (rest : List Char) :
    Gives (nextChar (c :: rest)) c rest :=
  nextChar_of_skipSpace (by simp [skipSpace, h])

/-- Blanks. -/
def Blank (chars : List Char) : Prop := ∀ c ∈ chars, isSpace c = true

theorem skipSpace_append {blanks : List Char} (h : Blank blanks) (chars : List Char) :
    skipSpace (blanks ++ chars) = skipSpace chars :=
  List.dropWhile_append_of_pos h

theorem blank_newline (level : Nat) : Blank (newline level) := by
  intro c hc
  rcases List.mem_cons.mp hc with rfl | hc
  · rfl
  · rw [List.eq_of_mem_replicate hc]
    rfl

theorem nextChar_append {blanks : List Char} (h : Blank blanks) {c : Char}
    (hc : isSpace c = false) (rest : List Char) :
    Gives (nextChar (blanks ++ c :: rest)) c rest :=
  nextChar_of_skipSpace (by rw [skipSpace_append h]; simp [skipSpace, hc])

/-! ## §2 Values by their first character -/

theorem readValue_string {chars rest more : List Char} {s : String}
    (hfirst : Gives (nextChar chars) '"' rest) (h : Gives (readString rest) (some s) more) :
    Gives (readValue chars) (.string s) more := by
  obtain ⟨hrest, hfirst⟩ := hfirst
  obtain ⟨hmore, h⟩ := h
  rw [readValue, hfirst]
  simp [h]

theorem readValue_array {chars rest more : List Char} {items : List Json}
    (hfirst : Gives (nextChar chars) '[' rest) (h : Gives (readItems true rest) items more) :
    Gives (readValue chars) (.array items) more := by
  obtain ⟨hrest, hfirst⟩ := hfirst
  obtain ⟨hmore, h⟩ := h
  rw [readValue, hfirst]
  simp [h]

theorem readValue_object {chars rest more : List Char} {fields : List (Option String × Json)}
    (hfirst : Gives (nextChar chars) '\x7b' rest)
    (h : Gives (readFields true rest) fields more) :
    Gives (readValue chars) (objectOf fields) more := by
  obtain ⟨hrest, hfirst⟩ := hfirst
  obtain ⟨hmore, h⟩ := h
  rw [readValue, hfirst]
  simp [h]

theorem readValue_scalar {chars rest more : List Char} {c : Char} {j : Json}
    (hfirst : Gives (nextChar chars) c rest) (hc : c ≠ '"' ∧ c ≠ '[' ∧ c ≠ '\x7b')
    (h : Gives (readScalar c rest) j more) : Gives (readValue chars) j more := by
  obtain ⟨hrest, hfirst⟩ := hfirst
  obtain ⟨hmore, h⟩ := h
  rw [readValue, hfirst]
  simp [h, hc]

/-- What does not begin as a word does is read as a number. -/
theorem readScalar_number {c : Char} (hc : c ≠ 'n' ∧ c ≠ 't' ∧ c ≠ 'f') {rest more : List Char}
    {j : Json} : Gives (readScalar c rest) j more ↔
      ∃ number, ofNumber number = j ∧ Gives (readNumber (c :: rest)) number more := by
  have hread : readScalar c rest =
      (readNumber (c :: rest)).map fun (number, more) => (ofNumber number, more) := by
    unfold readScalar
    split <;> simp_all
  rw [hread]
  exact gives_map ofNumber fun _ => ⟨rfl, rfl⟩

/-- How a value is read depends on the first character that is not blank, and on what follows it. -/
theorem readValue_congr {chars chars' rest more : List Char} {c : Char} {j : Json}
    (hfirst : Gives (nextChar chars) c rest) (hfirst' : Gives (nextChar chars') c rest)
    (h : Gives (readValue chars) j more) : Gives (readValue chars') j more := by
  obtain ⟨hrest, hfirst⟩ := hfirst
  obtain ⟨hrest', hfirst'⟩ := hfirst'
  -- Behind the first character both read the same, only the proofs about lengths differ.
  rw [readValue, hfirst] at h
  rw [readValue, hfirst']
  dsimp only at h ⊢
  -- The first character tells strings, arrays and objects from scalars.
  by_cases hstring : c = '"'
  · cases hread : readString rest <;> simp_all
  by_cases harray : c = '['
  · cases hread : readItems true rest <;> simp_all
  by_cases hobject : c = '\x7b'
  · cases hread : readFields true rest <;> simp_all
  cases hread : readScalar c rest <;> simp_all

/-- A value that is read has a first character, and it does not end an array. -/
theorem exists_nextChar_of_readValue {chars rest : List Char} {j : Json}
    (h : Gives (readValue chars) j rest) :
    ∃ c tail, skipSpace chars = c :: tail ∧ c ≠ ']' := by
  match hskip : skipSpace chars with
  | [] =>
    -- Without a character there is no value.
    have hnone : nextChar chars = none := by
      unfold nextChar
      split <;> simp_all
    rw [readValue, hnone] at h
    exact absurd h gives_none
  | c :: tail =>
    refine ⟨c, tail, rfl, ?_⟩
    rintro rfl
    obtain ⟨hrest, hnext⟩ := nextChar_of_skipSpace hskip
    -- A closing bracket would have to begin a number.
    have hscalar : Gives (readScalar ']' tail) j rest := by
      rw [readValue, hnext] at h
      rcases hread : readScalar ']' tail with _ | ⟨j', more, hmore⟩ <;> simp_all
    obtain ⟨number, -, hnumber⟩ := (readScalar_number (by decide)).mp hscalar
    obtain ⟨d, _, heq, hd⟩ := head_of_readNumber hnumber
    obtain ⟨rfl, -⟩ := List.cons.inj heq
    contradiction

/-- Blanks in front of a value are passed over. -/
theorem readValue_append {blanks chars rest : List Char} {j : Json} (hblanks : Blank blanks)
    (h : Gives (readValue chars) j rest) : Gives (readValue (blanks ++ chars)) j rest := by
  obtain ⟨c, tail, hskip, -⟩ := exists_nextChar_of_readValue h
  refine readValue_congr (nextChar_of_skipSpace hskip) (nextChar_of_skipSpace ?_) h
  rw [skipSpace_append hblanks, hskip]

/-! ## §3 Scalars -/

/-- What is read as a number stands where a value may stand. -/
theorem readValue_number {chars rest : List Char} {number : Number}
    (h : Gives (readNumber chars) number rest) :
    Gives (readValue chars) (ofNumber number) rest := by
  obtain ⟨c, tail, rfl, hc⟩ := head_of_readNumber h
  -- A number begins with a digit or a minus sign, and no other value does.
  have hne : ∀ d : Char, d.isDigit = false → d ≠ '-' → c ≠ d := by
    rintro d hdigit hminus rfl
    rcases hc with hc | hc
    · simp [hdigit] at hc
    · exact hminus hc
  have hspace : isSpace c = false := by
    simp [isSpace, hne]
  refine readValue_scalar (nextChar_cons hspace tail)
    ⟨hne _ rfl (by decide), hne _ rfl (by decide), hne _ rfl (by decide)⟩ ?_
  exact (readScalar_number ⟨hne _ rfl (by decide), hne _ rfl (by decide),
    hne _ rfl (by decide)⟩).mpr ⟨number, rfl, h⟩

/-- A word is read behind its first character. -/
theorem readWord_append (tail rest : List Char) (value : Json) (c : Char) :
    Gives (readWord tail value c (tail ++ rest)) value rest := by
  have hword : tail.isPrefixOf (tail ++ rest) = true :=
    List.isPrefixOf_iff_prefix.mpr (List.prefix_append tail rest)
  rw [readWord, if_pos hword]
  simp

/-! ## §4 Values that are read back -/

/-- All of the value denotes something, its integers fit, and its doubles have a property. -/
inductive Writable (p : Float → Prop) : Json → Prop where
  | null : Writable p .null
  | boolean (b : Bool) : Writable p (.boolean b)
  | integer {n : Int} (h : FitsInteger n) : Writable p (.integer n)
  | float {x : Float} (h : p x) : Writable p (.float x)
  | string (s : String) : Writable p (.string s)
  | array {items : List Json} (h : ∀ j ∈ items, Writable p j) : Writable p (.array items)
  | object {fields : List (String × Json)} (h : ∀ f ∈ fields, Writable p f.2) :
      Writable p (.object fields)

/-- The text of the value is read as the value, at every level of indentation and in front of every
text that does not continue a number. -/
def ReadsPretty (j : Json) : Prop :=
  ∀ level rest, EndsNumber rest → Gives (readValue (j.writePretty level rest)) j rest

theorem endsNumber_prettyItems (items : List Json) (level : Nat) (rest : List Char) :
    EndsNumber (writePretty.prettyItems items level rest) := by
  cases items with
  | nil => exact endsNumber_cons (.inr rfl) _
  | cons j items => exact endsNumber_cons (.inl rfl) _

theorem endsNumber_prettyFields (fields : List (String × Json)) (level : Nat)
    (rest : List Char) : EndsNumber (writePretty.prettyFields fields level rest) := by
  cases fields with
  | nil => exact endsNumber_cons (.inr rfl) _
  | cons f fields => exact endsNumber_cons (.inl rfl) _

/-! ### Items -/

/-- Where an item stands, the array does not end. -/
theorem readEnd_of_readValue {chars rest : List Char} {j : Json}
    (h : Gives (readValue chars) j rest) : readEnd ']' chars = none := by
  obtain ⟨c, tail, hskip, hc⟩ := exists_nextChar_of_readValue h
  obtain ⟨hrest, hnext⟩ := nextChar_of_skipSpace hskip
  simp [readEnd, hnext, hc]

theorem readItems_end {chars rest : List Char} {isFirst : Bool}
    (h : Gives (nextChar chars) ']' rest) : Gives (readItems isFirst chars) [] rest := by
  obtain ⟨hrest, h⟩ := h
  rw [readItems]
  simp [readEnd, h]

theorem readItems_first {chars more rest : List Char} {j : Json} {items : List Json}
    (hvalue : Gives (readValue chars) j more) (hitems : Gives (readItems false more) items rest) :
    Gives (readItems true chars) (j :: items) rest := by
  have hend := readEnd_of_readValue hvalue
  obtain ⟨hmore, hvalue⟩ := hvalue
  obtain ⟨hrest, hitems⟩ := hitems
  rw [readItems, hend]
  simp [itemStart, hvalue, hitems]

theorem readItems_next {chars more rest : List Char} {j : Json} {items : List Json}
    (hvalue : Gives (readValue chars) j more) (hitems : Gives (readItems false more) items rest) :
    Gives (readItems false (',' :: chars)) (j :: items) rest := by
  obtain ⟨hcomma, hnext⟩ := nextChar_cons (c := ',') rfl chars
  obtain ⟨hmore, hvalue⟩ := hvalue
  obtain ⟨hrest, hitems⟩ := hitems
  have hend : readEnd ']' (',' :: chars) = none := by simp [readEnd, hnext]
  have hstart : itemStart false (',' :: chars) = some ⟨chars, Nat.le_of_lt hcomma⟩ := by
    simp [itemStart, hnext]
  rw [readItems, hend, hstart]
  simp [hvalue, hitems]

/-- The items behind one, up to the end of the array. -/
theorem readItems_prettyItems {items : List Json} (h : ∀ j ∈ items, ReadsPretty j) (level : Nat)
    (rest : List Char) :
    Gives (readItems false (writePretty.prettyItems items level rest)) items rest := by
  induction items with
  | nil => exact readItems_end (nextChar_append (blank_newline level) rfl rest)
  | cons j items ih =>
    obtain ⟨hj, hitems⟩ := List.forall_mem_cons.mp h
    -- A comma or a line break follows the item, so that no number runs on.
    have hvalue := hj (level + 1) _ (endsNumber_prettyItems items level rest)
    exact readItems_next (readValue_append (blank_newline (level + 1)) hvalue) (ih hitems)

theorem readsPretty_array {items : List Json} (h : ∀ j ∈ items, ReadsPretty j) :
    ReadsPretty (.array items) := by
  intro level rest hrest
  cases items with
  | nil => exact readValue_array (nextChar_cons rfl _) (readItems_end (nextChar_cons rfl rest))
  | cons j items =>
    obtain ⟨hj, hitems⟩ := List.forall_mem_cons.mp h
    have hvalue := hj (level + 1) _ (endsNumber_prettyItems items level rest)
    refine readValue_array (nextChar_cons rfl _) ?_
    exact readItems_first (readValue_append (blank_newline (level + 1)) hvalue)
      (readItems_prettyItems hitems level rest)

/-! ### Fields -/

theorem quote_append (s : String) (rest : List Char) :
    quote s ++ rest = '"' :: (s.toList.flatMap escapeChar ++ '"' :: rest) := by
  simp [quote]

/-- A name is read with the colon behind it. -/
theorem readKey_quote {blanks : List Char} (hblanks : Blank blanks) (name : String)
    (rest : List Char) :
    Gives (readKey (blanks ++ (quote name ++ ':' :: rest))) (some name) rest := by
  rw [quote_append]
  obtain ⟨hquote, hnext⟩ := nextChar_append hblanks (c := '"') rfl
    (name.toList.flatMap escapeChar ++ '"' :: ':' :: rest)
  obtain ⟨hname, hstring⟩ := readString_escaped name (':' :: rest)
  obtain ⟨hcolon, hend⟩ := nextChar_cons (c := ':') rfl rest
  simp [readKey, hnext, hstring, hend]

theorem readFields_end {chars rest : List Char} {isFirst : Bool}
    (h : Gives (nextChar chars) '\x7d' rest) : Gives (readFields isFirst chars) [] rest := by
  obtain ⟨hrest, h⟩ := h
  rw [readFields]
  simp [readEnd, h]

/-- The first field: its name behind blanks, then its value behind a blank. -/
theorem readFields_first {blanks chars more rest : List Char} (hblanks : Blank blanks)
    (name : String) {j : Json} {fields : List (Option String × Json)}
    (hvalue : Gives (readValue chars) j more)
    (hfields : Gives (readFields false more) fields rest) :
    Gives (readFields true (blanks ++ (quote name ++ ':' :: chars)))
      ((some name, j) :: fields) rest := by
  -- The quote of the name is not the end of the object.
  have hend : readEnd '\x7d' (blanks ++ (quote name ++ ':' :: chars)) = none := by
    rw [quote_append]
    obtain ⟨hquote, hnext⟩ := nextChar_append hblanks (c := '"') rfl
      (name.toList.flatMap escapeChar ++ '"' :: ':' :: chars)
    simp [readEnd, hnext]
  obtain ⟨hchars, hkey⟩ := readKey_quote hblanks name chars
  obtain ⟨hmore, hvalue⟩ := hvalue
  obtain ⟨hrest, hfields⟩ := hfields
  -- The name is read, then its value, then the other fields.
  rw [readFields, hend]
  simp [itemStart, hkey, hvalue, hfields]

theorem readFields_next {blanks chars more rest : List Char} (hblanks : Blank blanks)
    (name : String) {j : Json} {fields : List (Option String × Json)}
    (hvalue : Gives (readValue chars) j more)
    (hfields : Gives (readFields false more) fields rest) :
    Gives (readFields false (',' :: (blanks ++ (quote name ++ ':' :: chars))))
      ((some name, j) :: fields) rest := by
  -- The comma is not the end of the object either.
  obtain ⟨hcomma, hnext⟩ :=
    nextChar_cons (c := ',') rfl (blanks ++ (quote name ++ ':' :: chars))
  have hend : readEnd '\x7d' (',' :: (blanks ++ (quote name ++ ':' :: chars))) = none := by
    simp [readEnd, hnext]
  -- Behind the comma stands a field.
  have hstart : itemStart false (',' :: (blanks ++ (quote name ++ ':' :: chars))) =
      some ⟨blanks ++ (quote name ++ ':' :: chars), Nat.le_of_lt hcomma⟩ := by
    simp [itemStart, hnext]
  obtain ⟨hchars, hkey⟩ := readKey_quote hblanks name chars
  obtain ⟨hmore, hvalue⟩ := hvalue
  obtain ⟨hrest, hfields⟩ := hfields
  rw [readFields, hend, hstart]
  simp [hkey, hvalue, hfields]

/-- A field as it is read: its name denotes something. -/
def readField (f : String × Json) : Option String × Json := (some f.1, f.2)

theorem objectOf_readField (fields : List (String × Json)) :
    objectOf (fields.map readField) = .object fields := by
  simp [objectOf, readField, Function.comp_def]

/-- The value of a field, behind the blank that follows the colon. -/
theorem readValue_blank {chars rest : List Char} {j : Json} (h : Gives (readValue chars) j rest) :
    Gives (readValue (' ' :: chars)) j rest :=
  readValue_append (show Blank [' '] by simp [Blank, isSpace]) h

/-- The fields behind one, up to the end of the object. -/
theorem readFields_prettyFields {fields : List (String × Json)}
    (h : ∀ f ∈ fields, ReadsPretty f.2) (level : Nat) (rest : List Char) :
    Gives (readFields false (writePretty.prettyFields fields level rest))
      (fields.map readField) rest := by
  induction fields with
  -- No field is left, and the object is closed on a line of its own.
  | nil => exact readFields_end (nextChar_append (blank_newline level) rfl rest)
  | cons f fields ih =>
    obtain ⟨name, j⟩ := f
    obtain ⟨hj, hfields⟩ := List.forall_mem_cons.mp h
    -- The value ends before the comma or the line break.
    have hvalue := hj (level + 1) _ (endsNumber_prettyFields fields level rest)
    have hread := readFields_next (blank_newline (level + 1)) name (readValue_blank hvalue)
      (ih hfields)
    rw [← List.append_assoc] at hread
    exact hread

theorem readsPretty_object {fields : List (String × Json)} (h : ∀ f ∈ fields, ReadsPretty f.2) :
    ReadsPretty (.object fields) := by
  intro level rest hrest
  cases fields with
  -- An empty object is closed at once.
  | nil => exact readValue_object (nextChar_cons rfl _) (readFields_end (nextChar_cons rfl rest))
  | cons f fields =>
    obtain ⟨name, j⟩ := f
    obtain ⟨hj, hfields⟩ := List.forall_mem_cons.mp h
    have hvalue := hj (level + 1) _ (endsNumber_prettyFields fields level rest)
    have hread := readFields_first (blank_newline (level + 1)) name (readValue_blank hvalue)
      (readFields_prettyFields hfields level rest)
    have hobject := readValue_object (nextChar_cons rfl _) hread
    rw [← List.append_assoc] at hobject
    -- Reading a field gives its name and its value back.
    have heq := objectOf_readField ((name, j) :: fields)
    rw [List.map_cons, readField] at heq
    rw [heq] at hobject
    exact hobject

/-! ## §5 Texts -/

/-- A writable value is read back, wherever it stands. -/
theorem readsPretty_of_writable {j : Json} (h : Writable ReadsBack j) : ReadsPretty j := by
  -- Induction on what makes the value writable: a container is read back if its parts are, one
  -- level further in and in front of the parts behind them.
  induction h with
  | null =>
    intro level rest _
    exact readValue_scalar (nextChar_cons rfl _) (by decide) (readWord_append _ rest _ _)
  | boolean b =>
    intro level rest _
    cases b
    · exact readValue_scalar (nextChar_cons rfl _) (by decide) (readWord_append _ rest _ _)
    · exact readValue_scalar (nextChar_cons rfl _) (by decide) (readWord_append _ rest _ _)
  | integer hn =>
    intro level rest hrest
    exact readValue_number (readNumber_append (readNumber_intChars hn) hrest)
  | float hx =>
    intro level rest hrest
    exact readValue_number (readNumber_append hx hrest)
  | string s =>
    -- The text of a string is escaped, and the quote in front says that it is one.
    intro level rest _
    show Gives (readValue (quote s ++ rest)) (.string s) rest
    rw [quote_append]
    exact readValue_string (nextChar_cons rfl _) (readString_escaped s rest)
  | array _ ih => exact readsPretty_array ih
  | object _ ih => exact readsPretty_object ih

/-- The text of a writable value is read as that value. -/
theorem ofText?_pretty {j : Json} (h : Writable ReadsBack j) : ofText? j.pretty = some j := by
  obtain ⟨hrest, hread⟩ := readsPretty_of_writable h 0 [] endsNumber_nil
  rw [ofText?, pretty, String.toList_ofList, ofChars?, hread]
  simp [skipSpace]

end BandedReport.Json
