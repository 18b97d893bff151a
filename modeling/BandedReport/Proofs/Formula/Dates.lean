import Mathlib.Data.List.Forall2
import BandedReport.Csv.Reader
import BandedReport.Print.Value
import BandedReport.Proofs.Calendar.Reading
import BandedReport.Proofs.Counterparts
import BandedReport.Proofs.Formula.Tree
import BandedReport.Proofs.Json.RoundTrip
import BandedReport.Proofs.Trimming
import BandedReport.Record.Document

/-!
# Dates that became texts

A record that was written and read again holds texts where it held dates: the shown text of a date
in a table, its written text in a document. The date functions and the date format do not tell such
a text from the date.

* `Csv.value_display` and `ofJson?_toJson_date` say what is read again;
* `SameDate` relates a date and its texts, and `dateArgument_matches` says that a function views
  them as the same date, but for the fraction of a second, which nothing depends on;
* `Registry.call_eq` carries this from the values of the arguments over to a call;
* `dates_outliveText` puts everything together.
-/

namespace BandedReport

/-! ## §1 Records that were read again -/

/-- A text that begins with a digit is none of the words, in any letter case. -/
theorem asciiLower_ne_word {c d : Char} (hc : c.isDigit = true) (tail : List Char)
    {word : List Char} (hword : word.head? = some d) (hd : d.isDigit = false) :
    asciiLower (c :: tail) ≠ word := by
  rintro rfl
  have hlower : c.toLower.isDigit = true :=
    forall_isDigit (p := fun c => c.toLower.isDigit = true) (by decide) hc
  obtain rfl : c.toLower = d := Option.some.inj hword
  rw [hd] at hlower
  contradiction

/-- Digits in front of a hyphen are no number. -/
theorem readNumberChars_hyphen {digits : List Char} (h : IsDigits digits) (rest : List Char) :
    readNumberChars (digits ++ '-' :: rest) = none := by
  -- The hyphen stops the digits, and what is left over makes it no decimal.
  have htake : (digits ++ '-' :: rest).takeWhile Char.isDigit = digits := by
    rw [List.takeWhile_append_of_pos h.2, List.takeWhile_cons_of_neg (by decide), List.append_nil]
  have hdrop : (digits ++ '-' :: rest).dropWhile Char.isDigit = '-' :: rest := by
    rw [List.dropWhile_append_of_pos h.2, List.dropWhile_cons_of_neg (by decide)]
  have hdecimal : readDecimal false (digits ++ '-' :: rest) = none := by
    rw [readDecimal, htake, hdrop]
    simp [h.1]
    rfl
  obtain ⟨c, tail, rfl⟩ := List.exists_cons_of_ne_nil h.1
  have hc : c.isDigit = true := h.2 c List.mem_cons_self
  -- A digit is no sign in front.
  have hsign : takeSign (c :: tail ++ '-' :: rest) = (false, c :: tail ++ '-' :: rest) := by
    unfold takeSign
    split
    · rename_i heq
      rw [(List.cons.inj heq).1] at hc
      contradiction
    · rename_i heq
      rw [(List.cons.inj heq).1] at hc
      contradiction
    · rfl
  -- It does not begin any of the three words for numbers out of range either.
  have hword : ∀ (word : String) {d : Char}, word.toList.head? = some d → d.isDigit = false →
      (String.ofList (asciiLower (c :: tail ++ '-' :: rest)) == word) = false := by
    intro word d hfirst hd
    rw [beq_eq_false_iff_ne]
    rintro rfl
    rw [String.toList_ofList] at hfirst
    exact asciiLower_ne_word hc _ hfirst hd rfl
  rw [readNumberChars, hsign]
  simp only [hword "inf" rfl rfl, hword "infinity" rfl rfl, hword "nan" rfl rfl,
    Bool.or_false, Bool.false_eq_true, if_false, hdecimal, Option.map_none]

/-- The shown text of a date begins with the digits of its year. -/
theorem exists_displayChars_eq {d : DateTime} (h : d.IsPlain) :
    ∃ digits rest, IsDigits digits ∧ d.displayChars = digits ++ '-' :: rest := by
  have hdigits : IsDigits (padded 4 d.date.year.toNat) :=
    ⟨List.append_ne_nil_of_right_ne_nil _ (isDigits_digitsOf _).1, isDigit_padded⟩
  have hiso : ∀ rest, ∃ more, d.date.isoChars ++ rest =
      padded 4 d.date.year.toNat ++ '-' :: more := fun rest =>
    ⟨_, DateTime.isoChars_append h.year_nonneg h.year_le rest⟩
  unfold DateTime.displayChars
  split
  · obtain ⟨more, hmore⟩ := hiso []
    exact ⟨_, more, hdigits, by rwa [List.append_nil] at hmore⟩
  · obtain ⟨more, hmore⟩ := hiso (' ' :: d.time.clockChars)
    exact ⟨_, more, hdigits, hmore⟩

/-- It ends with a digit of its last field. -/
theorem isDigit_getLast_displayChars (d : DateTime) :
    ∀ c ∈ d.displayChars.getLast?, c.isDigit = true := by
  -- Each field is padded digits, and one of them stands at the end.
  have hfield : ∀ (front : List Char) (n : Nat), ∀ c ∈ (front ++ padded 2 n).getLast?,
      c.isDigit = true := by
    intro front n c hc
    have hne : padded 2 n ≠ [] := List.append_ne_nil_of_right_ne_nil _ (isDigits_digitsOf n).1
    rw [List.getLast?_append_of_ne_nil _ hne] at hc
    exact isDigit_padded c (List.mem_of_mem_getLast? hc)
  unfold DateTime.displayChars
  split
  · rw [Date.isoChars]
    simpa using hfield (yearChars d.date.year ++ '-' :: padded 2 d.date.month ++ ['-']) d.date.day
  · rw [TimeOfDay.clockChars]
    simpa using hfield (d.date.isoChars ++ ' ' :: padded 2 d.time.hour ++ ':' ::
      padded 2 d.time.minute ++ [':']) (d.time.second + d.time.nanosecond / 1000000000)

/-- No type is detected in a text that begins with digits and a hyphen and ends with a digit. -/
theorem Csv.detect_hyphen {digits rest : List Char} (hdigits : IsDigits digits)
    (hlast : ∀ c ∈ (digits ++ '-' :: rest).getLast?, c.isDigit = true) :
    Csv.detect (String.ofList (digits ++ '-' :: rest)) =
      .text (String.ofList (digits ++ '-' :: rest)) := by
  obtain ⟨c, tail, rfl⟩ := List.exists_cons_of_ne_nil hdigits.1
  have hc : c.isDigit = true := hdigits.2 c List.mem_cons_self
  have hblank : ∀ {c : Char}, c.isDigit = true → isBlank c = false :=
    fun hc => forall_isDigit (p := fun c => isBlank c = false) (by decide) hc
  -- The text has no blank at its ends.
  have htrim : trimChars (c :: tail ++ '-' :: rest) = c :: tail ++ '-' :: rest := by
    refine trimChars_of_ends (fun d hd => hblank ?_) fun d hd => hblank (hlast d hd)
    rwa [← Option.some.inj hd]
  -- Its first digit begins no word.
  have hword : ∀ (word : List Char) {d : Char}, word.head? = some d → d.isDigit = false →
      ¬ (asciiLower (c :: tail ++ '-' :: rest) == word) = true := by
    intro word d hfirst hd
    rw [beq_iff_eq]
    exact asciiLower_ne_word hc _ hfirst hd
  unfold Csv.detect
  simp only [String.toList_ofList, htrim, readNumberChars_hyphen hdigits]
  refine (if_neg Bool.false_ne_true).trans ?_
  exact (if_neg (hword (asciiLower "true".toList) rfl rfl)).trans
    (if_neg (hword (asciiLower "false".toList) rfl rfl))

/-- The shown text of a date stays a text in a table, whether or not types are detected. -/
theorem Csv.value_display {d : DateTime} (h : d.IsPlain) (o : Csv.ReadOptions) :
    o.value (Scalar.date d).display = .text (Scalar.date d).display := by
  have hdisplay : (Scalar.date d).display = String.ofList d.displayChars := rfl
  have hlast := isDigit_getLast_displayChars d
  obtain ⟨digits, rest, hdigits, hchars⟩ := exists_displayChars_eq h
  rw [hchars] at hlast
  rw [hdisplay, hchars, Csv.ReadOptions.value]
  split
  · exact Csv.detect_hyphen hdigits hlast
  · rfl

/-- A date in a document is read again as its written text. -/
theorem ofJson?_toJson_date (d : DateTime) :
    (Json.ofText? (Scalar.date d).toJson.pretty).bind Scalar.ofJson? =
      some (.text (String.ofList d.isoChars)) := by
  rw [Scalar.toJson, Json.ofText?_pretty (.string _)]
  rfl

/-! ## §2 Values that are the same date -/

/-- The forms of a date: the date itself, and its texts. -/
inductive DateTime.IsForm (d : DateTime) : Scalar → Prop where
  | date : IsForm d (.date d)
  | shown : IsForm d (.text (Scalar.date d).display)
  | written : IsForm d (.text (String.ofList d.isoChars))
  | formatted : IsForm d (.text (d.format "yyyy-MM-dd HH:mm:ss"))

theorem DateTime.IsForm.asDate? {d : DateTime} (hd : d.IsPlain) {value : Scalar}
    (h : d.IsForm value) : ∃ a, value.asDate? = some a ∧ a.wholeSeconds = d.wholeSeconds := by
  cases h with
  | date => exact ⟨d, rfl, rfl⟩
  | shown => exact ⟨d.wholeSeconds, DateTime.read?_display hd, rfl⟩
  | written => exact ⟨d.wholeSeconds, DateTime.read?_iso hd, rfl⟩
  | formatted => exact ⟨d.wholeSeconds, DateTime.read?_format hd, rfl⟩

/-- The values are the same, or forms of the same date. -/
def Scalar.SameDate (v w : Scalar) : Prop :=
  v = w ∨ ∃ d : DateTime, d.IsPlain ∧ d.IsForm v ∧ d.IsForm w

theorem Scalar.SameDate.refl (v : Scalar) : SameDate v v := .inl rfl

namespace Formula

open Scalar (SameDate)

variable {r : Registry} {ctx ctx' : Context}

/-- A function finds the same date in arguments that are the same date, but for the fraction of a
second, or it does not find one and says so in the same words. -/
theorem dateArgument_matches {vs ws : List Scalar} (h : List.Forall₂ SameDate vs ws) (name : String)
    (index : Nat) : Matches (fun a b => a.wholeSeconds = b.wholeSeconds)
      (dateArgument name vs index) (dateArgument name ws index) := by
  -- The two lists have dates that are the same in each place.
  have hargument : SameDate (argument vs index) (argument ws index) := by
    induction h generalizing index with
    | nil => exact .refl _
    | cons hvw _ ih =>
      cases index with
      | zero => exact hvw
      | succ index => exact ih index
  rw [dateArgument, dateArgument]
  -- Two forms of one date are read as the same date, up to its whole seconds.
  rcases hargument with heq | ⟨d, hd, hv, hw⟩
  · rw [heq]
    exact .refl (Q := fun a b : DateTime => a.wholeSeconds = b.wholeSeconds) (fun _ => rfl) _
  · obtain ⟨a, hvDate, ha⟩ := hv.asDate? hd
    obtain ⟨b, hwDate, hb⟩ := hw.asDate? hd
    rw [hvDate, hwDate]
    exact .ok (ha.trans hb.symm)

/-! ## §3 Calls -/

/-- Two expressions, each in its context, are both stars or neither is, and both have values that
are related or fail with the same error. -/
structure Expr.Alike (R : Scalar → Scalar → Prop) (ctx ctx' : Context) (e e' : Expr) : Prop where
  isWildcard : e.isWildcard = e'.isWildcard
  value : Matches R (e.evaluate .builtin ctx) (e'.evaluate .builtin ctx')

/-- Calls of an eager function are the same if it does not tell the values of their arguments
apart. -/
theorem Registry.call_eq {name : String} {f : FunctionDef} {run : List Scalar → Context → Outcome}
    (hget : r.get? name = some f) (hbody : f.body = .eager run) {args args' : List Argument}
    {S : List Scalar → List Scalar → Prop}
    (hstars : args.map (·.isWildcard) = args'.map (·.isWildcard))
    (hvalues : Matches S (args.mapM (·.value ctx)) (args'.mapM (·.value ctx')))
    (hrun : ∀ vs ws, S vs ws → run vs ctx = run ws ctx') :
    r.call name args ctx = r.call name args' ctx' := by
  have hlength : args.length = args'.length := by
    simpa using congrArg List.length hstars
  -- A star stands in the same place of both, or in none.
  have hindex : args.findIdx? (·.isWildcard) = args'.findIdx? (·.isWildcard) := by
    have hmap := congrArg (List.findIdx? id) hstars
    rwa [List.findIdx?_map, List.findIdx?_map] at hmap
  -- The values stand for one another, and the function does the same with both lists.
  have hrunBody : f.runBody args ctx = f.runBody args' ctx' := by
    rw [FunctionDef.runBody, FunctionDef.runBody, hbody]
    dsimp only
    rw [hindex]
    cases args'.findIdx? (·.isWildcard) with
    | some index => rfl
    | none => exact hvalues.bind_eq hrun
  rw [Registry.call, Registry.call, hget]
  dsimp only
  rw [hlength, hrunBody]

theorem Expr.evaluate_call_eq {name : String} {f : FunctionDef}
    {run : List Scalar → Context → Outcome} (hget : Registry.builtin.get? name = some f)
    (hbody : f.body = .eager run) {args args' : List Expr}
    {S : List Scalar → List Scalar → Prop}
    (hstars : args.map Expr.isWildcard = args'.map Expr.isWildcard)
    (hvalues : Matches S (args.mapM (·.evaluate .builtin ctx))
      (args'.mapM (·.evaluate .builtin ctx')))
    (hrun : ∀ vs ws, S vs ws → run vs ctx = run ws ctx') :
    (call name args).evaluate .builtin ctx = (call name args').evaluate .builtin ctx' := by
  rw [evaluate, evaluate, arguments_eq_map, arguments_eq_map]
  -- The arguments of the calls are the expressions, with their stars and their values.
  refine Registry.call_eq hget hbody ?_ ?_ hrun
  · rw [List.map_map, List.map_map]
    exact hstars
  · rw [List.mapM_map, List.mapM_map]
    exact hvalues

theorem isWildcard_eq_of_alike {R : Scalar → Scalar → Prop} {args args' : List Expr}
    (h : List.Forall₂ (Expr.Alike R ctx ctx') args args') :
    args.map Expr.isWildcard = args'.map Expr.isWildcard :=
  (map_eq_of_forall₂ (h.imp fun _ _ h => h.isWildcard.symm)).symm

/-! ## §4 The date functions -/

theorem part_eq {vs ws : List Scalar} (h : List.Forall₂ SameDate vs ws) (name : String)
    (f : Date → Int) : Calendar.part name f vs = Calendar.part name f ws := by
  refine (dateArgument_matches h name 0).bind_eq fun a b hab => ?_
  rw [DateTime.date_eq_of_wholeSeconds hab]

theorem dateDiff_eq {vs ws : List Scalar} (h : List.Forall₂ SameDate vs ws) :
    Calendar.dateDiff vs = Calendar.dateDiff ws := by
  refine (dateArgument_matches h "DATEDIFF" 0).bind_eq fun a b hab => ?_
  refine (dateArgument_matches h "DATEDIFF" 1).bind_eq fun c d hcd => ?_
  rw [DateTime.date_eq_of_wholeSeconds hab, DateTime.date_eq_of_wholeSeconds hcd]

/-- Only the first argument is viewed as a date. -/
theorem dateFormat_eq {v w : Scalar} (h : SameDate v w) (rest : List Scalar) :
    Calendar.dateFormat (v :: rest) = Calendar.dateFormat (w :: rest) := by
  have hlists : List.Forall₂ SameDate (v :: rest) (w :: rest) :=
    .cons h (List.forall₂_same.mpr fun _ _ => .refl _)
  refine (dateArgument_matches hlists "DATEFORMAT" 0).bind_eq fun a b hab => ?_
  simp only [DateTime.formatChars_eq_of_wholeSeconds hab]
  rfl

/-- The date functions, but for the one with a pattern, give the same for the same dates. -/
theorem evaluate_datePart {args args' : List Expr}
    (h : List.Forall₂ (Expr.Alike SameDate ctx ctx') args args') {name : String}
    (hname : name ∈ ["YEAR", "MONTH", "DAY", "DATEDIFF"]) :
    (Expr.call name args).evaluate .builtin ctx =
      (Expr.call name args').evaluate .builtin ctx' := by
  have hstars := isWildcard_eq_of_alike h
  have hvalues := Matches.mapM (h.imp fun _ _ h => h.value)
  simp only [List.mem_cons, List.not_mem_nil, or_false] at hname
  rcases hname with rfl | rfl | rfl | rfl
  · exact Expr.evaluate_call_eq rfl rfl hstars hvalues fun _ _ h => part_eq h ..
  · exact Expr.evaluate_call_eq rfl rfl hstars hvalues fun _ _ h => part_eq h ..
  · exact Expr.evaluate_call_eq rfl rfl hstars hvalues fun _ _ h => part_eq h ..
  · exact Expr.evaluate_call_eq rfl rfl hstars hvalues fun _ _ h => dateDiff_eq h

theorem evaluate_dateFormat {e e' : Expr} {rest rest' : List Expr}
    (h : Expr.Alike SameDate ctx ctx' e e')
    (hrest : List.Forall₂ (Expr.Alike Eq ctx ctx') rest rest') :
    (Expr.call "DATEFORMAT" (e :: rest)).evaluate .builtin ctx =
      (Expr.call "DATEFORMAT" (e' :: rest')).evaluate .builtin ctx' := by
  have hstars := congrArg₂ List.cons h.isWildcard (isWildcard_eq_of_alike hrest)
  have hrestValues := Matches.mapM (hrest.imp fun _ _ h => h.value)
  -- The date is the first value, and the others are equal.
  have hvalues : Matches (fun vs ws => ∃ v w rest, vs = v :: rest ∧ ws = w :: rest ∧ SameDate v w)
      ((e :: rest).mapM (·.evaluate .builtin ctx))
      ((e' :: rest').mapM (·.evaluate .builtin ctx')) := by
    rw [List.mapM_cons, List.mapM_cons]
    refine h.value.bind fun v w hvw => hrestValues.bind fun vs ws hvalues => ?_
    rw [List.forall₂_eq_eq_eq] at hvalues
    subst hvalues
    exact .ok ⟨v, w, vs, rfl, rfl, hvw⟩
  refine Expr.evaluate_call_eq rfl rfl hstars hvalues ?_
  rintro _ _ ⟨v, w, values, rfl, rfl, hvw⟩
  exact dateFormat_eq hvw values

end Formula

/-- The date format prints the same dates alike. -/
theorem ValueFormat.print_eq {f : ValueFormat} (hf : f.formatType = .date) {v w : Scalar}
    (h : Scalar.SameDate v w) : f.print v = f.print w := by
  rcases h with rfl | ⟨d, hd, hv, hw⟩
  · rfl
  · -- Each form of the date is printed by the pattern, as the date itself is.
    have hprint : ∀ {value : Scalar}, d.IsForm value →
        f.print value = d.format DateTime.defaultPattern := by
      intro value hvalue
      obtain ⟨a, hdate, ha⟩ := hvalue.asDate? hd
      have hformat : a.format DateTime.defaultPattern = d.format DateTime.defaultPattern :=
        congrArg String.ofList (DateTime.formatChars_eq_of_wholeSeconds ha _)
      -- A form of a date is not null, so it is not left blank.
      have hne : value ≠ .null := by
        rintro rfl
        contradiction
      unfold ValueFormat.print
      split
      · contradiction
      · rw [hf]
        simp only [hdate, Option.map_some, Option.getD_some, hformat]
    rw [hprint hv, hprint hw]

/-- **Dates outlive becoming text.** Let a date have a year of four digits and no leap second. The
text that it is shown as, its text in documents, and its text by the pattern of all tokens are each
read as the date without the fraction of a second; a table that is read again holds the first of
them, a document the second. The date functions and the date format then give the same for the date
and for its texts, in any combination of arguments, whatever the pattern is; so they do in any two
contexts that give the arguments such values. -/
theorem Formula.dates_outliveText :
    (∀ d : DateTime, d.IsPlain →
      DateTime.read? (Scalar.date d).display = some d.wholeSeconds ∧
      DateTime.read? (String.ofList d.isoChars) = some d.wholeSeconds ∧
      DateTime.read? (d.format "yyyy-MM-dd HH:mm:ss") = some d.wholeSeconds ∧
      (∀ o : Csv.ReadOptions, o.value (Scalar.date d).display = .text (Scalar.date d).display) ∧
      (Json.ofText? (Scalar.date d).toJson.pretty).bind Scalar.ofJson? =
        some (.text (String.ofList d.isoChars))) ∧
    (∀ (ctx ctx' : Context) (args args' : List Expr),
      List.Forall₂ (Expr.Alike Scalar.SameDate ctx ctx') args args' →
      ∀ name ∈ ["YEAR", "MONTH", "DAY", "DATEDIFF"],
        (Expr.call name args).evaluate .builtin ctx =
          (Expr.call name args').evaluate .builtin ctx') ∧
    (∀ (ctx ctx' : Context) (e e' : Expr) (rest rest' : List Expr),
      Expr.Alike Scalar.SameDate ctx ctx' e e' →
      List.Forall₂ (Expr.Alike Eq ctx ctx') rest rest' →
        (Expr.call "DATEFORMAT" (e :: rest)).evaluate .builtin ctx =
          (Expr.call "DATEFORMAT" (e' :: rest')).evaluate .builtin ctx') ∧
    (∀ (f : ValueFormat) (v w : Scalar), f.formatType = .date → Scalar.SameDate v w →
      f.print v = f.print w) := by
  refine ⟨fun d hd => ?_, fun _ _ _ _ hargs _ => evaluate_datePart hargs,
    fun _ _ _ _ _ _ => evaluate_dateFormat, fun _ _ _ hf => ValueFormat.print_eq hf⟩
  exact ⟨DateTime.read?_display hd, DateTime.read?_iso hd, DateTime.read?_format hd,
    Csv.value_display hd, ofJson?_toJson_date d⟩

private def leapMorning : DateTime :=
  ⟨⟨2008, 2, 29, by decide, by decide⟩,
    ⟨8, 7, 41, 250000000, by decide, by decide, by decide, by decide⟩⟩

/-- A leap day and a fraction of a second. -/
theorem Formula.dates_outliveText_leapMorning :
    leapMorning.IsPlain ∧
    DateTime.read? "2008-02-29T08:07:41.250" = some leapMorning.wholeSeconds ∧
    ∀ ctx : Context,
      (Expr.call "MONTH" [.literal (.date leapMorning)]).evaluate .builtin ctx =
        (Expr.call "MONTH" [.text "2008-02-29T08:07:41.250"]).evaluate .builtin ctx := by
  obtain ⟨htexts, hparts, -, -⟩ := dates_outliveText
  -- Its text has a fraction of a second, which is not among the whole seconds.
  have hplain : leapMorning.IsPlain := ⟨by decide, by decide, by decide⟩
  have hwritten : String.ofList leapMorning.isoChars = "2008-02-29T08:07:41.250" := by
    decide +kernel
  refine ⟨hplain, hwritten ▸ (htexts _ hplain).2.1, fun ctx => ?_⟩
  -- The text is one of the forms of the date.
  have hsame : Scalar.SameDate (.date leapMorning) (.text "2008-02-29T08:07:41.250") :=
    .inr ⟨leapMorning, hplain, .date, hwritten ▸ .written⟩
  have hargument : Expr.Alike Scalar.SameDate ctx ctx (.literal (.date leapMorning))
      (.text "2008-02-29T08:07:41.250") := by
    refine ⟨rfl, ?_⟩
    rw [Expr.text, Expr.evaluate, Expr.evaluate]
    exact .ok hsame
  exact hparts ctx ctx _ _ (.cons hargument .nil) "MONTH" (by simp)

end BandedReport
