import BandedReport.Csv.Reader

/-!
# Encoded tables

A text is split by its units, not by its characters. `Alphabet.Encodes` says what splitting relies
on when the units come from an encoding of characters: an ASCII character is one unit, which is no
part of any other character, and encoded characters can be decoded again. Then it makes no
difference whether a table is read by units or by characters:

* `action_unit`: what is done with a unit is what is done with its character;
* `split_units` is the induction over the text, `records_units` and `read_units` follow from it;
* `Alphabet.encodes_bytes`: UTF-8 is such an encoding, so a file of bytes is read like the text that
  it encodes (`read_toUTF8`).
-/

namespace BandedReport.Csv

variable {α : Type}

/-- The units of characters, one character after the other. -/
abbrev units (encode : Char → List α) (chars : List Char) : List α := chars.flatMap encode

/-- The alphabet's units are those of an encoding of characters. -/
structure Alphabet.Encodes (A : Alphabet α) (encode : Char → List α) : Prop where
  ascii : ∀ c : Char, c.toNat < 128 → encode c = [A.ofChar c]
  /-- No other character has the unit of an ASCII character. -/
  eq_of_mem : ∀ c d : Char, c.toNat < 128 → A.ofChar c ∈ encode d → d = c
  decode : ∀ chars, A.decode? (units encode chars) = some (String.ofList chars)
  mark : encode '\ufeff' = A.byteOrderMark
  /-- Nothing else encodes as the mark does. -/
  head_of_mark : ∀ chars, A.byteOrderMark <+: units encode chars → chars.head? = some '\ufeff'

/-- The dialect divides texts by ASCII characters. -/
structure Dialect.IsAscii (d : Dialect) : Prop where
  delimiter : d.delimiter.toNat < 128
  quote : d.quote.toNat < 128

/-- Characters encode themselves. -/
theorem Alphabet.encodes_chars : Alphabet.chars.Encodes fun c => [c] where
  ascii _ _ := rfl
  eq_of_mem _ _ _ hmem := (List.mem_singleton.mp hmem).symm
  decode chars := by simp [units, Alphabet.chars]
  mark := rfl
  head_of_mark chars hprefix := by
    rw [units, List.flatMap_singleton'] at hprefix
    obtain ⟨rest, rfl⟩ := hprefix
    rfl

/-! ## §1 Units and characters -/

@[simp] theorem Alphabet.ofChar_chars (c : Char) : Alphabet.chars.ofChar c = c := rfl

theorem Alphabet.isBreak_chars (c : Char) :
    Alphabet.chars.isBreak c = (c == '\n' || c == '\r') := rfl

/-- A character that is not in ASCII belongs to the field, at its place and at the next one. -/
theorem action_foreign {d : Dialect} (hd : d.IsAscii) (place : Place) {c : Char}
    (hc : 128 ≤ c.toNat) :
    ∃ next, action .chars d place c = .copy next ∧ action .chars d next c = .copy next := by
  -- A foreign character is none of those a dialect has a meaning for.
  have hne : ∀ s : Char, s.toNat < 128 → (c == s) = false := by
    intro s hs
    apply beq_false_of_ne
    rintro rfl
    omega
  have hquote := hne _ hd.quote
  have hbreak : Alphabet.chars.isBreak c = false := by
    rw [Alphabet.isBreak_chars, hne '\n' (by decide), hne '\r' (by decide), Bool.or_self]
  have hplain : plainAction .chars d c = .copy .plain := by
    simp [plainAction, hne _ hd.delimiter, hbreak]
  -- Within quotes it is copied, and anywhere else the text goes on unquoted.
  cases place with
  | quoted => exact ⟨.quoted, by simp [action, hquote], by simp [action, hquote]⟩
  | recordStart | fieldStart | plain | quoteInQuoted =>
    exact ⟨.plain, by simp [action, firstAction, hquote, hbreak, hplain], hplain⟩

/-- Units that are all added to the field. -/
theorem split_copied [BEq α] {A : Alphabet α} {d : Dialect} {place : Place} {us : List α}
    (h : ∀ u ∈ us, action A d place u = .copy place) (field : List α) (fields : List (List α))
    (rest : List α) :
    split A d place field fields (us ++ rest) =
      split A d place (us.reverse ++ field) fields rest := by
  induction us generalizing field with
  | nil => rfl
  | cons u us ih =>
    have hus := ih (fun v hv => h v (List.mem_cons_of_mem u hv)) (u :: field)
    simp only [List.cons_append, split, h u List.mem_cons_self, hus, List.reverse_cons,
      List.append_assoc, List.nil_append]

/-- The fields of an encoded record are the texts of its characters. -/
theorem Alphabet.Encodes.decodeFields_units {A : Alphabet α} {encode : Char → List α}
    (hA : A.Encodes encode) (record : List (List Char)) :
    decodeFields A (record.map (units encode)) = .ok (record.map String.ofList) := by
  have hmapM : (record.map (units encode)).mapM A.decode? = some (record.map String.ofList) := by
    induction record with
    | nil => rfl
    | cons field rest ih =>
      rw [List.map_cons, List.mapM_cons, hA.decode field, ih]
      rfl
  rw [decodeFields, hmapM]

theorem decodeFields_chars (record : List (List Char)) :
    decodeFields .chars record = .ok (record.map String.ofList) := by
  have h := Alphabet.encodes_chars.decodeFields_units record
  rwa [show units (fun c => [c]) = id from funext List.flatMap_singleton', List.map_id] at h

namespace Alphabet.Encodes

variable {A : Alphabet α} {encode : Char → List α} (hA : A.Encodes encode)
include hA

/-- A character has at least one unit, or it would be lost in decoding. -/
theorem encode_ne_nil (c : Char) : encode c ≠ [] := by
  intro hnil
  have hnone : units encode [c] = units encode [] := by simp [hnil]
  have htexts := (hA.decode [c]).symm.trans (hnone ▸ hA.decode [])
  simp at htexts

variable [BEq α] [LawfulBEq α]

/-- A unit is that of an ASCII character if it belongs to that character. -/
theorem beq_ofChar {c s : Char} {u : α} (hs : s.toNat < 128) (hu : u ∈ encode c) :
    (u == A.ofChar s) = (c == s) := by
  by_cases hc : c = s
  · subst hc
    have hu : u = A.ofChar c := by simpa [hA.ascii c hs] using hu
    simp [hu]
  · have hne : u ≠ A.ofChar s := by
      rintro rfl
      exact hc (hA.eq_of_mem s c hs hu)
    rw [beq_false_of_ne hne, beq_false_of_ne hc]

variable {d : Dialect} (hd : d.IsAscii)
include hd

/-- What is done with a unit is what is done with its character. -/
theorem action_unit (place : Place) {c : Char} {u : α} (hu : u ∈ encode c) :
    action A d place u = action .chars d place c := by
  have hbreak : A.isBreak u = Alphabet.chars.isBreak c := by
    rw [Alphabet.isBreak, hA.beq_ofChar (by decide) hu, hA.beq_ofChar (by decide) hu,
      Alphabet.isBreak_chars]
  have hplain : plainAction A d u = plainAction .chars d c := by
    simp only [plainAction, hA.beq_ofChar hd.delimiter hu, hbreak]
    rfl
  have hquote := hA.beq_ofChar hd.quote hu
  have hfirst : firstAction A d u = firstAction .chars d c := by
    simp only [firstAction, hquote, hplain]
    rfl
  cases place <;> simp only [action, hfirst, hplain, hquote, hbreak] <;> rfl

/-- An encoded text is split like its characters. -/
theorem split_units (place : Place) (field : List Char) (fields : List (List Char))
    (chars : List Char) :
    split A d place (units encode field.reverse).reverse (fields.map (units encode))
        (units encode chars) =
      (split .chars d place field fields chars).map (·.map (units encode)) := by
  induction chars generalizing place field fields with
  | nil => cases place <;> simp [split]
  | cons c chars ih =>
    obtain ⟨u, us, hu⟩ := List.exists_cons_of_ne_nil (hA.encode_ne_nil c)
    have haction : ∀ place, ∀ v ∈ u :: us, action A d place v = action .chars d place c :=
      fun place v hv => hA.action_unit hd place (hu ▸ hv)
    -- Only a character that is not in ASCII has more than one unit, and it is copied.
    have hmore : us = [] ∨
        ∃ next, action .chars d place c = .copy next ∧ action .chars d next c = .copy next := by
      rcases Nat.lt_or_ge c.toNat 128 with hc | hc
      · rw [hA.ascii c hc, List.cons.injEq] at hu
        exact .inl hu.2.symm
      · exact .inr (action_foreign hd place hc)
    have hunits : units encode (c :: chars) = u :: (us ++ units encode chars) := by
      simp [units, hu]
    rw [hunits, split, split, haction place u List.mem_cons_self]
    cases hcase : action .chars d place c with
    | copy next =>
      -- What follows the first unit of a character is copied to the same place.
      have hcopied : ∀ v ∈ us, action A d next v = .copy next := by
        intro v hv
        rcases hmore with rfl | ⟨next', hnext, hagain⟩
        · exact absurd hv List.not_mem_nil
        · obtain rfl : next = next' := by simpa [hcase] using hnext
          rw [haction next v (List.mem_cons_of_mem u hv), hagain]
      have hfield : us.reverse ++ u :: (units encode field.reverse).reverse =
          (units encode (c :: field).reverse).reverse := by
        simp [units, hu]
      simp only [split_copied hcopied, hfield, ih]
    | skip next =>
      -- No foreign character is skipped or ends anything, so there is only the one unit.
      obtain rfl : us = [] := by simpa [hcase] using hmore
      simp only [List.nil_append, ih]
    | endField =>
      obtain rfl : us = [] := by simpa [hcase] using hmore
      have hnext := ih .fieldStart [] (field.reverse :: fields)
      simpa using hnext
    | endRecord =>
      obtain rfl : us = [] := by simpa [hcase] using hmore
      have hnext := ih .recordStart [] []
      simpa using hnext

omit hd in
theorem dropMark_units_mark (rest : List Char) :
    dropMark A (units encode ('\ufeff' :: rest)) = units encode rest := by
  have htext : units encode ('\ufeff' :: rest) = A.byteOrderMark ++ units encode rest := by
    simp [units, hA.mark]
  rw [htext, dropMark, if_pos (List.isPrefixOf_iff_prefix.mpr (List.prefix_append ..)),
    List.drop_left]

omit hd in
theorem dropMark_units_of_ne {chars : List Char} (h : chars.head? ≠ some '\ufeff') :
    dropMark A (units encode chars) = units encode chars := by
  have hmark : ¬ A.byteOrderMark.isPrefixOf (units encode chars) = true := by
    rw [List.isPrefixOf_iff_prefix]
    exact fun hprefix => h (hA.head_of_mark chars hprefix)
  rw [dropMark, if_neg hmark]

omit hd in
/-- The mark in front of an encoded text is the mark in front of its characters. -/
theorem dropMark_units (chars : List Char) :
    dropMark A (units encode chars) = units encode (dropMark .chars chars) := by
  have hself : ∀ chars : List Char, units (fun c => [c]) chars = chars :=
    fun chars => List.flatMap_singleton' chars
  by_cases hmark : chars.head? = some '\ufeff'
  · obtain ⟨rest, rfl⟩ := List.head?_eq_some_iff.mp hmark
    have hchars := Alphabet.encodes_chars.dropMark_units_mark rest
    rw [hself, hself] at hchars
    rw [hA.dropMark_units_mark, hchars]
  · have hchars := Alphabet.encodes_chars.dropMark_units_of_ne hmark
    rw [hself] at hchars
    rw [hA.dropMark_units_of_ne hmark, hchars]

/-- An encoded text has the records of its characters. -/
theorem records_units (chars : List Char) :
    records A d (units encode chars) =
      (records .chars d chars).map (·.map (units encode)) := by
  rw [records, hA.dropMark_units]
  exact hA.split_units hd .recordStart [] [] (dropMark .chars chars)

omit [BEq α] [LawfulBEq α] hd

theorem rowsBelow_units (o : ReadOptions) (columns : List String) (row : Nat)
    (table : List (List (List Char))) :
    rowsBelow A o columns row (table.map (·.map (units encode))) =
      rowsBelow .chars o columns row table := by
  induction table generalizing row with
  | nil => rfl
  | cons record rest ih =>
    simp only [List.map_cons, rowsBelow, hA.decodeFields_units, decodeFields_chars, ih]

theorem rowsUnnamed_units (o : ReadOptions) (width : Nat) (table : List (List (List Char))) :
    rowsUnnamed A o width (table.map (·.map (units encode))) =
      rowsUnnamed .chars o width table := by
  induction table generalizing width with
  | nil => rfl
  | cons record rest ih =>
    simp only [List.map_cons, rowsUnnamed, hA.decodeFields_units, decodeFields_chars, ih]

/-- An encoded table is read like its characters. -/
theorem read_units [BEq α] [LawfulBEq α] (o : ReadOptions) (hd : o.dialect.IsAscii)
    (chars : List Char) : read A o (units encode chars) = read .chars o chars := by
  simp only [read, hA.records_units hd]
  cases records .chars o.dialect chars with
  | nil => rfl
  | cons header rest =>
    simp only [List.map_cons, hA.decodeFields_units, decodeFields_chars, hA.rowsBelow_units]
    have hunnamed := hA.rowsUnnamed_units o 0 (header :: rest)
    rw [List.map_cons] at hunnamed
    rw [hunnamed]

end Alphabet.Encodes

/-! ## §2 UTF-8 -/

/-- The bytes of a character that is not in ASCII are those of no ASCII character. -/
theorem le_toNat_of_mem_utf8EncodeChar {c : Char} (hc : 128 ≤ c.toNat) {b : UInt8}
    (hb : b ∈ String.utf8EncodeChar c) : 128 ≤ b.toNat := by
  -- Two, three or four units are left, and each of them has its high bit set.
  have hc : ¬ c.val.toNat ≤ 0x7f := by
    change ¬ c.toNat ≤ 0x7f
    omega
  rw [String.utf8EncodeChar] at hb
  simp only [hc, if_false] at hb
  split at hb
  · simp only [List.mem_cons, List.not_mem_nil, or_false] at hb
    rcases hb with rfl | rfl <;> rw [UInt8.toNat_ofNat'] <;> omega
  · split at hb
    all_goals simp only [List.mem_cons, List.not_mem_nil, or_false] at hb
    · rcases hb with rfl | rfl | rfl <;> rw [UInt8.toNat_ofNat'] <;> omega
    · rcases hb with rfl | rfl | rfl | rfl <;> rw [UInt8.toNat_ofNat'] <;> omega

theorem utf8EncodeChar_ascii {c : Char} (hc : c.toNat < 128) :
    String.utf8EncodeChar c = [c.toNat.toUInt8] := by
  have hc : c.val.toNat ≤ 0x7f := Nat.le_of_lt_succ hc
  simp only [String.utf8EncodeChar, hc, if_true]
  rfl

/-- The first byte of the mark begins three bytes, and these leave one character. -/
theorem eq_mark_of_utf8EncodeChar {c : Char} {rest more : List UInt8}
    (h : String.utf8EncodeChar c ++ rest = [0xEF, 0xBB, 0xBF] ++ more) : c = '\ufeff' := by
  have hval : c.val.toNat = c.toNat := rfl
  rw [← Char.toNat_inj]
  change c.toNat = 0xfeff
  -- The number of bytes is decided by the first one; other lengths begin below or above it.
  rw [String.utf8EncodeChar] at h
  repeat' split at h
  all_goals
    simp [← UInt8.toNat_inj] at h
    omega

theorem toByteArray_units (chars : List Char) :
    (units String.utf8EncodeChar chars).toByteArray = (String.ofList chars).toByteArray := by
  rw [String.toByteArray_ofList, List.utf8Encode]

theorem fromUTF8?_units (chars : List Char) :
    String.fromUTF8? ⟨(units String.utf8EncodeChar chars).toArray⟩ =
      some (String.ofList chars) := by
  have hbytes : (⟨(units String.utf8EncodeChar chars).toArray⟩ : ByteArray) =
      (String.ofList chars).toByteArray := by
    rw [← toByteArray_units]
    apply ByteArray.ext
    apply Array.toList_inj.mp
    rw [List.toList_data_toByteArray]
  rw [hbytes, String.fromUTF8?, dif_pos (String.ofList chars).isValidUTF8]
  rfl

private theorem byteArray_toList_loop (bytes : ByteArray) (i : Nat) (front : List UInt8) :
    ByteArray.toList.loop bytes i front = front.reverse ++ bytes.data.toList.drop i := by
  fun_induction ByteArray.toList.loop bytes i front with
  | case1 i front hlt ih =>
    have hlen : i < bytes.data.toList.length := hlt
    have hget : bytes.get! i = bytes.data.toList[i] := by
      change bytes.data[i]! = _
      rw [getElem!_pos bytes.data i hlt, Array.getElem_toList]
    rw [ih, List.drop_eq_getElem_cons hlen, hget, List.reverse_cons, List.append_assoc,
      List.singleton_append]
  | case2 i front hge =>
    have hlen : bytes.data.toList.length ≤ i := Nat.le_of_not_lt hge
    rw [List.drop_eq_nil_of_le hlen, List.append_nil]

/-- The bytes of a text are the units of its characters. -/
theorem toUTF8_toList (chars : List Char) :
    (String.ofList chars).toUTF8.toList = units String.utf8EncodeChar chars := by
  rw [ByteArray.toList, byteArray_toList_loop, String.toUTF8_eq_toByteArray, ← toByteArray_units,
    List.toList_data_toByteArray]
  rfl

/-- UTF-8 is an encoding for texts of bytes. -/
theorem Alphabet.encodes_bytes : Alphabet.bytes.Encodes String.utf8EncodeChar where
  ascii _ := utf8EncodeChar_ascii
  eq_of_mem c d hc hmem := by
    have hunit : (Alphabet.bytes.ofChar c).toNat = c.toNat := by
      simp only [Alphabet.bytes, UInt8.toNat_ofNat', Nat.toUInt8]
      omega
    -- A character in ASCII is its own unit, and any other has none as small.
    rcases Nat.lt_or_ge d.toNat 128 with hd | hd
    · rw [utf8EncodeChar_ascii hd, List.mem_singleton] at hmem
      rw [← Char.toNat_inj, ← hunit, hmem]
      simp only [UInt8.toNat_ofNat', Nat.toUInt8]
      omega
    · have hlarge := le_toNat_of_mem_utf8EncodeChar hd hmem
      omega
  decode := fromUTF8?_units
  mark := by decide
  head_of_mark chars hprefix := by
    obtain ⟨more, hmore⟩ := hprefix
    cases chars with
    | nil => simp [Alphabet.bytes] at hmore
    | cons c rest => rw [eq_mark_of_utf8EncodeChar hmore.symm, List.head?_cons]

/-- The bytes of a table in UTF-8 are read like its text. -/
theorem read_toUTF8 (o : ReadOptions) (hd : o.dialect.IsAscii) (chars : List Char) :
    read .bytes o (String.ofList chars).toUTF8.toList = read .chars o chars := by
  rw [toUTF8_toList, Alphabet.encodes_bytes.read_units o hd]

end BandedReport.Csv
