import BandedReport.Csv.Writer
import BandedReport.Proofs.Csv.Encoding

/-!
# Splitting written lines

The lines that `write` puts together are split into the fields they were made of:

* a field in quotes is taken up character by character, a doubled quote as one (`split_doubled`),
  and a field without quotes holds nothing that ends it (`split_copied`); either way the splitter
  ends at a place where the next delimiter or line break ends the field (`exists_split_writeField`);
* `split_writeFields` puts the fields of a line together, by induction on the fields;
* `split_lines` puts lines together. It begins and ends between two records, so that the line feed
  of a line break of two characters is passed over there.
-/

namespace BandedReport.Csv

/-- The delimiter and the quote are two ASCII characters, and neither of them breaks a line. -/
structure Dialect.Regular (d : Dialect) : Prop extends d.IsAscii where
  delimiter_ne_quote : d.delimiter ≠ d.quote
  delimiter_ne_break : d.delimiter ≠ '\n' ∧ d.delimiter ≠ '\r'
  quote_ne_break : d.quote ≠ '\n' ∧ d.quote ≠ '\r'

/-- A field with the quotes in it doubled. -/
def Dialect.doubled (d : Dialect) (field : List Char) : List Char :=
  field.flatMap fun c => if c == d.quote then [c, c] else [c]

theorem Dialect.quoted_eq (d : Dialect) (field : List Char) :
    d.quoted field = d.quote :: (d.doubled field ++ [d.quote]) := rfl

/-- A line break ends the record, and what is left of it is a line feed or nothing. -/
theorem LineBreak.chars_eq (b : LineBreak) :
    ∃ c more, b.chars = c :: more ∧ Alphabet.chars.isBreak c = true ∧
      (more = [] ∨ more = ['\n']) := by
  cases b with
  | crlf => exact ⟨'\r', ['\n'], rfl, rfl, .inr rfl⟩
  | lf => exact ⟨'\n', [], rfl, rfl, .inl rfl⟩
  | cr => exact ⟨'\r', [], rfl, rfl, .inl rfl⟩

/-! ## §1 Fields -/

/-- At such a place a delimiter ends the field and a line break ends the record. -/
structure Place.Ends (d : Dialect) (place : Place) : Prop where
  delimiter : action .chars d place d.delimiter = .endField
  lineBreak : ∀ c, Alphabet.chars.isBreak c = true → action .chars d place c = .endRecord

variable {d : Dialect} (hd : d.Regular)
include hd

theorem Dialect.Regular.ne_of_isBreak {c : Char} (hc : Alphabet.chars.isBreak c = true) :
    c ≠ d.delimiter ∧ c ≠ d.quote := by
  simp only [Alphabet.isBreak_chars, Bool.or_eq_true, beq_iff_eq] at hc
  rcases hc with rfl | rfl
  · exact ⟨hd.delimiter_ne_break.1.symm, hd.quote_ne_break.1.symm⟩
  · exact ⟨hd.delimiter_ne_break.2.symm, hd.quote_ne_break.2.symm⟩

theorem Dialect.Regular.isBreak_quote : Alphabet.chars.isBreak d.quote = false := by
  simp [Alphabet.isBreak_chars, hd.quote_ne_break]

theorem Dialect.Regular.isBreak_delimiter : Alphabet.chars.isBreak d.delimiter = false := by
  simp [Alphabet.isBreak_chars, hd.delimiter_ne_break]

omit hd in
theorem plainAction_delimiter : plainAction .chars d d.delimiter = .endField := by
  simp [plainAction]

theorem plainAction_break {c : Char} (hc : Alphabet.chars.isBreak c = true) :
    plainAction .chars d c = .endRecord := by
  simp [plainAction, hd.ne_of_isBreak hc, hc]

theorem ends_plain : Place.plain.Ends d where
  delimiter := plainAction_delimiter
  lineBreak _ hc := plainAction_break hd hc

theorem ends_fieldStart : Place.fieldStart.Ends d where
  delimiter := by
    simp [action, firstAction, hd.delimiter_ne_quote, plainAction_delimiter]
  lineBreak c hc := by
    simp [action, firstAction, hd.ne_of_isBreak hc, plainAction_break hd hc]

theorem ends_quoteInQuoted : Place.quoteInQuoted.Ends d where
  delimiter := by
    simp [action, hd.delimiter_ne_quote, plainAction_delimiter]
  lineBreak c hc := by
    simp [action, hd.ne_of_isBreak hc, plainAction_break hd hc]

omit hd in
/-- Within quotes the field is taken up, each doubled quote as one. -/
theorem split_doubled (chars field : List Char) (fields : List (List Char)) (rest : List Char) :
    split .chars d .quoted field fields (d.doubled chars ++ rest) =
      split .chars d .quoted (chars.reverse ++ field) fields rest := by
  induction chars generalizing field with
  | nil => rfl
  | cons c chars ih =>
    have hstep : split .chars d .quoted field fields (d.doubled (c :: chars) ++ rest) =
        split .chars d .quoted (c :: field) fields (d.doubled chars ++ rest) := by
      by_cases hc : c = d.quote
      · simp [Dialect.doubled, split, action, hc]
      · simp [Dialect.doubled, split, action, hc]
    rw [hstep, ih]
    simp

/-- A field in quotes: one opens it, one closes it. -/
theorem split_quoted {place : Place} (hplace : place = .recordStart ∨ place = .fieldStart)
    (field : List Char) (fields : List (List Char)) (rest : List Char) :
    split .chars d place [] fields (d.quoted field ++ rest) =
      split .chars d .quoteInQuoted field.reverse fields rest := by
  have hopen : action .chars d place d.quote = .skip .quoted := by
    rcases hplace with rfl | rfl
    · simp [action, firstAction, hd.isBreak_quote]
    · simp [action, firstAction]
  have hclose : action .chars d .quoted d.quote = .skip .quoteInQuoted := by
    simp [action]
  simp only [Dialect.quoted_eq, List.cons_append, List.append_assoc, split, hopen, split_doubled,
    List.append_nil, hclose, List.nil_append]

omit hd in
/-- An ordinary character is text, and it begins a field without quotes. -/
theorem action_of_not_special {place : Place} {c : Char} (hc : d.isSpecial c = false)
    (hplace : place = .recordStart ∨ place = .fieldStart ∨ place = .plain) :
    action .chars d place c = .copy .plain := by
  simp only [Dialect.isSpecial, Bool.or_eq_false_iff, beq_eq_false_iff_ne, ne_eq] at hc
  obtain ⟨⟨⟨hdelimiter, hquote⟩, hn⟩, hr⟩ := hc
  have hbreak : Alphabet.chars.isBreak c = false := by
    simp [Alphabet.isBreak_chars, hn, hr]
  have hplain : plainAction .chars d c = .copy .plain := by
    simp [plainAction, hdelimiter, hbreak]
  rcases hplace with rfl | rfl | rfl
  · simp [action, firstAction, hquote, hbreak, hplain]
  · simp [action, firstAction, hquote, hplain]
  · exact hplain

/-- A written field is read up to a place where it can end. Only an empty field leaves the splitter
where it was. -/
theorem exists_split_writeField {place : Place}
    (hplace : place = .recordStart ∨ place = .fieldStart) (field : List Char) :
    ∃ after, (after.Ends d ∨ after = place ∧ field = []) ∧ ∀ fields rest,
      split .chars d place [] fields (d.writeField field ++ rest) =
        split .chars d after field.reverse fields rest := by
  rw [Dialect.writeField]
  split <;> rename_i hspecial
  · -- In quotes, every character is copied and the closing quote is read last.
    exact ⟨.quoteInQuoted, .inl (ends_quoteInQuoted hd), split_quoted hd hplace field⟩
  · cases field with
    | nil => exact ⟨place, .inr ⟨rfl, rfl⟩, fun _ _ => rfl⟩
    | cons c chars =>
      simp only [List.any_eq_true, not_exists, not_and, Bool.not_eq_true] at hspecial
      -- Without quotes, no character is special, neither the first nor a later one.
      have hfirst : action .chars d place c = .copy .plain := by
        apply action_of_not_special (hspecial c List.mem_cons_self)
        rcases hplace with rfl | rfl <;> simp
      have hplain : ∀ x ∈ chars, action .chars d .plain x = .copy .plain := by
        intro x hx
        exact action_of_not_special (hspecial x (List.mem_cons_of_mem c hx)) (by simp)
      refine ⟨.plain, .inl (ends_plain hd), fun fields rest => ?_⟩
      rw [List.cons_append, split, hfirst]
      simp only [split_copied hplain, List.reverse_cons]

/-! ## §2 Lines -/

/-- A field before a delimiter. -/
theorem split_writeField_delimiter {place : Place}
    (hplace : place = .recordStart ∨ place = .fieldStart) (field : List Char)
    (fields : List (List Char)) (rest : List Char) :
    split .chars d place [] fields (d.writeField field ++ d.delimiter :: rest) =
      split .chars d .fieldStart [] (field :: fields) rest := by
  obtain ⟨after, hafter, hsplit⟩ := exists_split_writeField hd hplace field
  have hends : action .chars d after d.delimiter = .endField := by
    rcases hafter with hends | ⟨rfl, -⟩
    · exact hends.delimiter
    · -- Even between two records, a delimiter ends an empty field.
      have hstart := (ends_fieldStart hd).delimiter
      rcases hplace with rfl | rfl
      · simpa [action, hd.isBreak_delimiter] using hstart
      · exact hstart
  rw [hsplit, split, hends]
  simp only [List.reverse_reverse]

/-- A field at the end of a line; only an empty line would be passed over. -/
theorem split_writeField_break {place : Place}
    (hplace : place = .recordStart ∨ place = .fieldStart) {field : List Char}
    (hne : place = .recordStart → field ≠ []) (fields : List (List Char)) {c : Char}
    (hc : Alphabet.chars.isBreak c = true) (rest : List Char) :
    split .chars d place [] fields (d.writeField field ++ c :: rest) =
      (field :: fields).reverse :: split .chars d .recordStart [] [] rest := by
  obtain ⟨after, hafter, hsplit⟩ := exists_split_writeField hd hplace field
  -- An empty field without quotes is not the first of its record, so the break ends the record.
  have hends : after.Ends d := by
    rcases hafter with hends | ⟨rfl, rfl⟩
    · exact hends
    · rcases hplace with rfl | rfl
      · exact absurd rfl (hne rfl)
      · exact ends_fieldStart hd
  rw [hsplit, split, hends.lineBreak c hc]
  simp only [List.reverse_reverse]

/-- Fields with delimiters between them, up to a line break. -/
theorem split_intercalate {place : Place} (hplace : place = .recordStart ∨ place = .fieldStart)
    {field : List Char} {more : List (List Char)}
    (hne : place = .recordStart → field ≠ [] ∨ more ≠ []) (done : List (List Char)) {c : Char}
    (hc : Alphabet.chars.isBreak c = true) (rest : List Char) :
    split .chars d place [] done
        ([d.delimiter].intercalate ((field :: more).map d.writeField) ++ c :: rest) =
      (done.reverse ++ field :: more) :: split .chars d .recordStart [] [] rest := by
  induction more generalizing place field done with
  | nil =>
    -- The last field is ended by the line break.
    have hlast := split_writeField_break hd hplace (by simpa using hne) done hc rest
    simpa using hlast
  | cons next more ih =>
    -- The first is ended by a delimiter, and the others go on from there.
    have hnext := @ih .fieldStart (.inr rfl) next nofun (field :: done)
    simp only [List.map_cons, List.intercalate_cons_cons, List.append_assoc, List.cons_append,
      List.nil_append]
    rw [split_writeField_delimiter hd hplace]
    simpa using hnext

/-- The fields of a line, which has at least one. -/
theorem split_writeFields {fields : List (List Char)} (hne : fields ≠ []) {c : Char}
    (hc : Alphabet.chars.isBreak c = true) (rest : List Char) :
    split .chars d .recordStart [] [] (d.writeFields fields ++ c :: rest) =
      fields :: split .chars d .recordStart [] [] rest := by
  rw [Dialect.writeFields.eq_def]
  split
  · exact absurd rfl hne
  · -- A field that is empty and alone stands in quotes, so that the line is not blank.
    rw [split_quoted hd (.inl rfl), split, (ends_quoteInQuoted hd).lineBreak c hc]
    rfl
  · -- Without quotes for the whole line, not all of its fields are empty, or there are two.
    rename_i halone
    obtain ⟨field, more, rfl⟩ := List.exists_cons_of_ne_nil hne
    refine split_intercalate hd (.inl rfl) (fun _ => ?_) [] hc rest
    by_cases hfield : field = []
    · subst hfield
      exact .inr fun hmore => halone (hmore ▸ rfl)
    · exact .inl hfield

omit hd in
/-- A line begins with a quote, a delimiter or the first field. -/
theorem exists_writeFields_eq_cons {fields : List (List Char)} (hne : fields ≠ []) :
    ∃ c more, d.writeFields fields = c :: more ∧
      (c = d.quote ∨ c = d.delimiter ∨ ∃ field ∈ fields.head?, field.head? = some c) := by
  rw [Dialect.writeFields.eq_def]
  split
  · exact absurd rfl hne
  · exact ⟨_, _, rfl, .inl rfl⟩
  · rename_i halone
    obtain ⟨field, more, rfl⟩ := List.exists_cons_of_ne_nil hne
    -- What follows the first field begins with a delimiter, if anything follows.
    obtain ⟨rest, hrest, hmore⟩ : ∃ rest,
        [d.delimiter].intercalate ((field :: more).map d.writeField) =
          d.writeField field ++ rest ∧ (more ≠ [] → ∃ tail, rest = d.delimiter :: tail) := by
      cases more with
      | nil => exact ⟨[], by simp, fun h => absurd rfl h⟩
      | cons next more =>
        exact ⟨d.delimiter :: [d.delimiter].intercalate ((next :: more).map d.writeField),
          by simp [List.intercalate_cons_cons], fun _ => ⟨_, rfl⟩⟩
    rw [hrest, Dialect.writeField]
    split
    · -- The first field begins with its quote, with the delimiter behind it or with its own
      -- character.
      exact ⟨_, _, rfl, .inl rfl⟩
    · cases field with
      | nil =>
        obtain ⟨tail, rfl⟩ := hmore fun hmore => halone (hmore ▸ rfl)
        exact ⟨d.delimiter, tail, rfl, .inr (.inl rfl)⟩
      | cons c chars => exact ⟨c, chars ++ rest, rfl, .inr (.inr ⟨c :: chars, rfl, rfl⟩)⟩

/-- The lines of a text. -/
theorem split_lines (b : LineBreak) {lines : List (List (List Char))}
    (hne : ∀ fields ∈ lines, fields ≠ []) :
    split .chars d .recordStart [] []
      (lines.flatMap fun fields => d.writeFields fields ++ b.chars) = lines := by
  obtain ⟨c, more, hchars, hc, hmore⟩ := b.chars_eq
  induction lines with
  | nil => rfl
  | cons fields lines ih =>
    -- The second half of a line break is skipped before the next record.
    have hskip : ∀ rest, split .chars d .recordStart [] [] (more ++ rest) =
        split .chars d .recordStart [] [] rest := by
      intro rest
      rcases hmore with rfl | rfl
      · rfl
      · rfl
    have hrest := ih fun fields hmem => hne fields (List.mem_cons_of_mem _ hmem)
    simp only [List.flatMap_cons, hchars, List.append_assoc, List.cons_append] at hrest ⊢
    rw [split_writeFields hd (hne fields List.mem_cons_self) hc, hskip, hrest]

end BandedReport.Csv
