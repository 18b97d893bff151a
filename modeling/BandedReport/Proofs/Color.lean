import BandedReport.Color
import BandedReport.Proofs.Trimming

/-!
# Reading written colors

A color is written with two hexadecimal digits for each component, the opacity first when it is not
full. Whatever its components are, this text is read as the color.
-/

namespace BandedReport

namespace Color

/-! ## §1 Components -/

/-- The capital hexadecimal digit of a number below sixteen. -/
def hexDigit (k : Nat) : Char := (Nat.digitChar k).toUpper

theorem hexPair_eq (n : UInt8) :
    hexPair n = [hexDigit (n.toNat / 16), hexDigit (n.toNat % 16)] := rfl

theorem hexValue?_hexDigit : ∀ k < 16, hexValue? (hexDigit k) = some k := by
  decide

theorem hexDigit_ne_plus : ∀ k < 16, hexDigit k ≠ '+' := by
  decide

/-- The two digits of a component are read as that component. -/
theorem component?_hexDigit (n : UInt8) :
    component? (hexDigit (n.toNat / 16)) (hexDigit (n.toNat % 16)) = some n := by
  have hsize : n.toNat < 256 := n.toNat_lt
  have hhigh := hexValue?_hexDigit (n.toNat / 16) (by omega)
  have hlow := hexValue?_hexDigit (n.toNat % 16) (by omega)
  have hplus := hexDigit_ne_plus (n.toNat / 16) (by omega)
  have hvalue : 16 * (n.toNat / 16) + n.toNat % 16 = n.toNat := Nat.div_add_mod ..
  rw [component?, if_neg (by simpa using hplus), hhigh, hlow]
  show some (UInt8.ofNat (16 * (n.toNat / 16) + n.toNat % 16)) = some n
  rw [hvalue, UInt8.ofNat_toNat]

/-- What holds of every hexadecimal digit holds of the characters of a component. -/
theorem forall_mem_hexPair {p : Char → Prop} (hp : ∀ k < 16, p (hexDigit k)) (n : UInt8) :
    ∀ c ∈ hexPair n, p c := by
  have hsize : n.toNat < 256 := n.toNat_lt
  rw [hexPair_eq, List.forall_mem_cons, List.forall_mem_singleton]
  exact ⟨hp _ (by omega), hp _ (by omega)⟩

/-! ## §2 Colors -/

/-- The digits of a color. -/
def digits (c : Color) : List Char :=
  (if c.alpha == 255 then [] else hexPair c.alpha) ++
    (hexPair c.red ++ hexPair c.green ++ hexPair c.blue)

theorem toChars_eq (c : Color) : c.toChars = '#' :: c.digits := by
  unfold toChars digits
  split <;> rfl

/-- So it does of the characters of a color behind its mark. -/
theorem forall_mem_digits {p : Char → Prop} (hp : ∀ k < 16, p (hexDigit k)) (c : Color) :
    ∀ d ∈ c.digits, p d := by
  have hpair := forall_mem_hexPair hp
  simp only [digits, List.forall_mem_append]
  refine ⟨?_, ⟨hpair c.red, hpair c.green⟩, hpair c.blue⟩
  split
  · exact List.forall_mem_nil _
  · exact hpair c.alpha

/-- A written color is read back. -/
theorem readChars?_toChars (c : Color) : readChars? c.toChars = some c := by
  -- Neither the mark nor a digit is blank, and no digit is a mark.
  have hblank : ∀ d ∈ '#' :: c.digits, isBlank d = false :=
    List.forall_mem_cons.mpr ⟨by decide, forall_mem_digits (by decide) c⟩
  have hmarks : ('#' :: c.digits).dropWhile (· == '#') = c.digits := by
    rw [List.dropWhile_cons_of_pos (by decide)]
    exact dropWhile_of_forall (forall_mem_digits (by decide) c)
  rw [toChars_eq, readChars?, trimChars_eq_self hblank]
  rw [if_pos (by simp), ofHexChars?, trimChars_eq_self hblank, hmarks]
  -- Six digits are read as an opaque color, eight begin with the opacity.
  obtain ⟨red, green, blue, alpha⟩ := c
  by_cases halpha : alpha = 255
  · subst halpha
    simp [digits, hexPair_eq, component?_hexDigit, rgb]
  · simp [digits, hexPair_eq, component?_hexDigit, halpha]

theorem read?_toText (c : Color) : read? c.toText = some c := by
  rw [read?, toText, String.toList_ofList, readChars?_toChars]

end Color

end BandedReport
