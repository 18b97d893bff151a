import Mathlib.Data.List.DropRight
import Mathlib.Data.List.TakeWhile
import BandedReport.Text.Blank

/-!
# Removing blanks

What is left of a text without the blanks around it: a part of the text, which is not trimmed any
further, and with blanks put around it again it is trimmed to the same.
-/

namespace BandedReport

variable {chars : List Char}

theorem trimChars_sublist (chars : List Char) : (trimChars chars).Sublist chars :=
  (List.rdropWhile_prefix isBlank (l := trimStart chars)).sublist.trans
    (List.dropWhile_sublist isBlank)

/-- Trimming twice is trimming once. -/
theorem trimChars_trimChars (chars : List Char) :
    trimChars (trimChars chars) = trimChars chars := by
  -- What is cut off behind leaves the first character, which is no blank.
  have hstart : trimStart (trimChars chars) = trimChars chars := by
    obtain ⟨cut, hcut⟩ := List.rdropWhile_prefix isBlank (l := trimStart chars)
    change trimChars chars ++ cut = trimStart chars at hcut
    cases hchars : trimChars chars with
    | nil => rfl
    | cons c rest =>
      have hfirst := List.head?_dropWhile_not isBlank chars
      rw [← trimStart, ← hcut, hchars, List.cons_append, List.head?_cons] at hfirst
      exact List.dropWhile_cons_of_neg (by simpa using hfirst)
  rw [trimChars, hstart]
  exact List.rdropWhile_idempotent isBlank (trimStart chars)

/-- Nothing is dropped from a text if its first character stays. -/
theorem dropWhile_of_forall {p : Char → Bool} (h : ∀ c ∈ chars, p c = false) :
    chars.dropWhile p = chars := by
  refine List.dropWhile_eq_self_iff.mpr fun hpos => ?_
  rw [h _ (List.getElem_mem hpos)]
  exact Bool.false_ne_true

/-- A text that neither begins nor ends with a blank is not trimmed. -/
theorem trimChars_of_ends (hfirst : ∀ c ∈ chars.head?, isBlank c = false)
    (hlast : ∀ c ∈ chars.getLast?, isBlank c = false) : trimChars chars = chars := by
  have hstart : trimStart chars = chars := by
    cases chars with
    | nil => rfl
    | cons c rest => exact List.dropWhile_cons_of_neg (by simp [hfirst c rfl])
  -- From behind it is the same with the reversed text.
  have hend : trimEnd chars = chars := by
    rw [trimEnd]
    cases hchars : chars.reverse with
    | nil => simp [List.reverse_eq_nil_iff.mp hchars]
    | cons c rest =>
      have hc := hlast c (by simp [← List.head?_reverse, hchars])
      rw [List.dropWhile_cons_of_neg (by simp [hc]), ← hchars, List.reverse_reverse]
  rw [trimChars, hstart, hend]

/-- Blanks around a text without blanks are removed. -/
theorem trimChars_around {before after : List Char} (hbefore : ∀ c ∈ before, isBlank c = true)
    (hne : chars ≠ []) (h : ∀ c ∈ chars, isBlank c = false)
    (hafter : ∀ c ∈ after, isBlank c = true) : trimChars (before ++ (chars ++ after)) = chars := by
  have hstart : trimStart (before ++ (chars ++ after)) = chars ++ after := by
    obtain ⟨c, rest, rfl⟩ := List.exists_cons_of_ne_nil hne
    rw [trimStart, List.dropWhile_append_of_pos hbefore, List.cons_append,
      List.dropWhile_cons_of_neg (by simp [h c List.mem_cons_self])]
  have hreverse : ∀ c ∈ chars.reverse, isBlank c = false :=
    fun c hc => h c (List.mem_reverse.mp hc)
  rw [trimChars, hstart, trimEnd, List.reverse_append,
    List.dropWhile_append_of_pos fun c hc => hafter c (List.mem_reverse.mp hc),
    dropWhile_of_forall hreverse, List.reverse_reverse]

/-- A text without blanks stays as it is when blanks around it are removed. -/
theorem trimChars_eq_self (h : ∀ c ∈ chars, isBlank c = false) : trimChars chars = chars := by
  exact trimChars_of_ends (fun c hc => h c (List.mem_of_mem_head? hc))
    (fun c hc => h c (List.mem_of_mem_getLast? hc))

/-- What is removed from a text is blanks. -/
theorem exists_around_trimChars (chars : List Char) :
    ∃ before after, (∀ c ∈ before, isBlank c = true) ∧ (∀ c ∈ after, isBlank c = true) ∧
      before ++ (trimChars chars ++ after) = chars := by
  refine ⟨chars.takeWhile isBlank, (List.takeWhile isBlank (trimStart chars).reverse).reverse,
    fun c hc => List.mem_takeWhile_imp hc,
    fun c hc => List.mem_takeWhile_imp (List.mem_reverse.mp hc), ?_⟩
  have hend : trimChars chars ++ (List.takeWhile isBlank (trimStart chars).reverse).reverse =
      trimStart chars := by
    rw [trimChars, trimEnd, ← List.reverse_append, List.takeWhile_append_dropWhile,
      List.reverse_reverse]
  rw [hend]
  exact List.takeWhile_append_dropWhile

/-- A change of characters that keeps blanks and the others apart goes through trimming. -/
theorem trimChars_map {f : Char → Char} (h : ∀ c, isBlank (f c) = isBlank c) (chars : List Char) :
    trimChars (chars.map f) = (trimChars chars).map f := by
  have hblank : isBlank ∘ f = isBlank := funext h
  rw [trimChars, trimEnd, trimStart, List.dropWhile_map, hblank, ← List.map_reverse,
    List.dropWhile_map, hblank, ← List.map_reverse]
  rfl

end BandedReport
